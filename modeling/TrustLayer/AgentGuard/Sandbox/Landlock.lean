import TrustLayer.AgentGuard.Sandbox.Pathsafe
import TrustLayer.AgentGuard.Sandbox.Seccomp
import TrustLayer.Library.Settling

/-!
# The filesystem ruleset

A ruleset handles some of the rights to the filesystem, and denies what it
handles wherever no rule grants it.  A rule grants its rights to everything
beneath one place.
-/

namespace TrustLayer.AgentGuard.Sandbox

open TrustLayer.Library

/-! ## Rights -/

/-- `AccessFs`, with the rights of later ABIs last. -/
inductive AccessFs where
  | execute
  | writeFile
  | readFile
  | readDir
  | removeDir
  | removeFile
  | makeChar
  | makeDir
  | makeReg
  | makeSock
  | makeFifo
  | makeBlock
  | makeSym
  | refer
  | truncate
  | ioctlDev
  deriving DecidableEq

namespace AccessFs

/-- `from_read(ABI::V1)`. -/
def fromRead : List AccessFs :=
  [.execute, .readFile, .readDir]

/-- `from_write(ABI::V1)`. -/
def fromWrite : List AccessFs :=
  [.writeFile, .removeDir, .removeFile, .makeChar, .makeDir, .makeReg,
    .makeSock, .makeFifo, .makeBlock, .makeSym]

/-- `from_all(ABI::V1)`. -/
def fromAll : List AccessFs :=
  fromRead ++ fromWrite

end AccessFs

/-- `PathBeneath`; the place is the one that the path led to. -/
structure PathBeneath where
  place : List Str
  access : List AccessFs
  deriving DecidableEq

structure Ruleset where
  handled : List AccessFs
  rules : List PathBeneath
  deriving DecidableEq

/-- A process in the domain of the ruleset has the right at the place.  `REFER`
is denied even where it is not handled. -/
def Ruleset.Permits (ruleset : Ruleset) (right : AccessFs) (place : List Str) :
    Prop :=
  (right ≠ .refer ∧ right ∉ ruleset.handled) ∨
    ∃ rule ∈ ruleset.rules, right ∈ rule.access ∧ rule.place <+: place

/-! ## The paths -/

def systemRxPaths : List Str := names
  ["/usr", "/bin", "/sbin", "/lib", "/lib64", "/etc/ld.so.cache",
    "/etc/ld.so.preload", "/etc/alternatives", "/etc/ssl", "/etc/openssl",
    "/etc/pki", "/etc/ca-certificates", "/etc/ca-certificates.conf",
    "/etc/crypto-policies", "/etc/gitconfig", "/etc/malloc.conf",
    "/etc/rustup", "/etc/localtime", "/dev/null", "/dev/zero", "/dev/full",
    "/dev/urandom", "/dev/random", "/dev/tty", "/proc/self",
    "/proc/sys/vm/overcommit_memory", "/sys/kernel/mm/transparent_hugepage"]

/-- `PathBuf::join`, for a relative path. -/
def join (base rest : Str) : Str :=
  if base.getLast? = some '/' ∨ base = [] then base ++ rest
  else base ++ '/' :: rest

/-- The variable, or a path in the home directory. -/
def fromEnvOr (env : Str → Option Str) (var rel : String) : Option Str :=
  (env var.toList).or
    ((env "HOME".toList).map fun home => join home rel.toList)

def toolchainReadPaths (env : Str → Option Str) : List Str :=
  [fromEnvOr env "RUSTUP_HOME" ".rustup", fromEnvOr env "CARGO_HOME" ".cargo",
    env "GOROOT".toList, fromEnvOr env "GOMODCACHE" "go/pkg/mod",
    fromEnvOr env "GOPATH" "go"].reduceOption

def toolchainWritePaths (env : Str → Option Str) : List Str :=
  [fromEnvOr env "GOCACHE" ".cache/go-build"].reduceOption

/-! ## Errors -/

/-- A `RulesetError`, by its number and its text. -/
structure RulesetError where
  errno : Nat
  display : Str
  deriving DecidableEq

def enosys : Nat := 38

def eopnotsupp : Nat := 95

def refusedNoSys : SandboxError :=
  .landlock ("Landlock refused (ENOSYS): kernel too old " ++
    "(need Linux >= 5.13 for Landlock)").toList

def refusedDisabled : SandboxError :=
  .landlock ("Landlock refused (EOPNOTSUPP): Landlock disabled at boot; " ++
    "add lsm=landlock to the kernel cmdline").toList

def refusedOrder : SandboxError :=
  .landlock ("Landlock refused (EPERM): internal: seccomp installed before " ++
    "Landlock (ordering bug) — the pinned NNP->Landlock->seccomp order was " ++
    "violated").toList

def mapRulesetErr (error : RulesetError) : SandboxError :=
  if error.errno = enosys then refusedNoSys
  else if error.errno = eopnotsupp then refusedDisabled
  else if error.errno = eperm then refusedOrder
  else
    .landlock ("Landlock setup failed (errno=".toList ++
      Nat.toDigits 10 error.errno ++ "): ".toList ++ error.display)

/-! ## Installation -/

inductive LandlockStatus where
  | notEnabled
  | notImplemented
  | available
  deriving DecidableEq

inductive RulesetStatus where
  | fullyEnforced
  | partiallyEnforced
  | notEnforced
  deriving DecidableEq

structure RestrictionStatus where
  ruleset : RulesetStatus
  noNewPrivs : Bool
  landlock : LandlockStatus
  deriving DecidableEq

/-- What the installation finds: the environment, where paths lead to, and the
answers of the kernel. -/
structure LandlockHost where
  env : Str → Option Str
  /-- `PathFd::new`, with the text of its error. -/
  openPath : Str → Except Str (List Str)
  /-- `create_dir_all` and `PathFd::new`. -/
  openCreated : Str → Except Str (List Str)
  handleAccess : Except RulesetError Unit
  create : Except RulesetError Unit
  addRule : PathBeneath → Except RulesetError Unit
  restrictSelf : Except RulesetError RestrictionStatus

/-- The loops over the paths that may be missing. -/
def addExisting (host : LandlockHost) (openAt : Str → Except Str (List Str))
    (access : List AccessFs) (rules : List PathBeneath) :
    List Str → Except SandboxError (List PathBeneath)
  | [] => .ok rules
  | path :: paths =>
      match openAt path with
      | .error _ => addExisting host openAt access rules paths
      | .ok place => do
          (host.addRule ⟨place, access⟩).mapError mapRulesetErr
          addExisting host openAt access (rules ++ [⟨place, access⟩]) paths

/-- The cache directories, for the tier that writes. -/
def addCaches (host : LandlockHost) (tier : PermissionTier)
    (created : List PathBeneath) : Except SandboxError (List PathBeneath) :=
  if tier = .workspaceWrite then
    addExisting host host.openCreated AccessFs.fromAll created
      (toolchainWritePaths host.env)
  else .ok created

def grantedFor : PermissionTier → Except SandboxError (List AccessFs)
  | .readOnly => .ok AccessFs.fromRead
  | .workspaceWrite => .ok AccessFs.fromAll
  | .dangerFullAccess =>
      .error (.landlock "DangerFullAccess has no ruleset".toList)

def checkStatus (status : RestrictionStatus) : Except SandboxError Unit :=
  match status.landlock with
  | .notImplemented => .error refusedNoSys
  | .notEnabled => .error refusedDisabled
  | .available =>
      if status.ruleset = .notEnforced then
        .error (.landlock ("Landlock ruleset could not be enforced " ++
          "(NotEnforced) — refusing to run unconfined").toList)
      else if status.noNewPrivs = false then
        .error (.landlock ("Landlock enforced but NO_NEW_PRIVS not set — " ++
          "internal ordering bug (NNP must be set before Landlock)").toList)
      else .ok ()

/-- The ruleset that is put in force, if the tier has one. -/
def apply (host : LandlockHost) (tier : PermissionTier) (workspaceRoot : Str) :
    Except SandboxError (Option Ruleset) :=
  if tier = .dangerFullAccess then .ok none
  else do
    let granted ← grantedFor tier
    let rootPlace ← (host.openPath workspaceRoot).mapError fun text =>
      .landlock ("cannot open workspace_root ".toList ++ workspaceRoot ++
        " for Landlock: ".toList ++ text)
    host.handleAccess.mapError mapRulesetErr
    host.create.mapError mapRulesetErr
    (host.addRule ⟨rootPlace, granted⟩).mapError mapRulesetErr
    let created ← addExisting host host.openPath AccessFs.fromRead
      [⟨rootPlace, granted⟩] systemRxPaths
    let created ← addExisting host host.openPath AccessFs.fromRead created
      (toolchainReadPaths host.env)
    let created ← addCaches host tier created
    let status ← host.restrictSelf.mapError mapRulesetErr
    checkStatus status
    return some { handled := AccessFs.fromAll, rules := created }

/-! ## What is permitted -/

section

variable {host : LandlockHost} {tier : PermissionTier} {workspaceRoot : Str}

theorem addExisting_eq {openAt : Str → Except Str (List Str)}
    {access : List AccessFs} {rules created : List PathBeneath}
    {paths : List Str}
    (added : addExisting host openAt access rules paths = .ok created)
    (rule : PathBeneath) :
    rule ∈ created ↔ rule ∈ rules ∨
      ∃ path ∈ paths, ∃ place, openAt path = .ok place ∧
        rule = ⟨place, access⟩ := by
  induction paths generalizing rules with
  | nil =>
      obtain rfl := Except.ok.inj added
      simp
  | cons path paths induction =>
      rw [addExisting] at added
      cases opened : openAt path with
      | error text =>
          rw [opened] at added
          rw [induction added]
          simp [opened]
      | ok place =>
          rw [opened] at added
          obtain ⟨⟨⟩, -, added⟩ := bind_eq_ok_iff.mp added
          rw [induction added]
          simp [opened, or_assoc]

/-- The place is beneath one that some of the paths lead to. -/
def Beneath (openAt : Str → Except Str (List Str)) (paths : List Str)
    (place : List Str) : Prop :=
  ∃ path ∈ paths, ∃ top, openAt path = .ok top ∧ top <+: place

theorem exists_rule_iff {openAt : Str → Except Str (List Str)}
    {access : List AccessFs} {paths : List Str} {right : AccessFs}
    {place : List Str} :
    (∃ rule : PathBeneath,
      (∃ path ∈ paths, ∃ top, openAt path = .ok top ∧ rule = ⟨top, access⟩) ∧
        right ∈ rule.access ∧ rule.place <+: place) ↔
      right ∈ access ∧ Beneath openAt paths place := by
  constructor
  · rintro ⟨_, ⟨path, listed, top, opened, rfl⟩, granted, beneath⟩
    exact ⟨granted, path, listed, top, opened, beneath⟩
  · rintro ⟨granted, path, listed, top, opened, beneath⟩
    exact ⟨_, ⟨path, listed, top, opened, rfl⟩, granted, beneath⟩

theorem beneath_append {openAt : Str → Except Str (List Str)}
    {first second : List Str} {place : List Str} :
    Beneath openAt (first ++ second) place ↔
      Beneath openAt first place ∨ Beneath openAt second place := by
  simp only [Beneath, List.mem_append, or_and_right, exists_or]

theorem not_handled_iff {right : AccessFs} :
    right ≠ .refer ∧ right ∉ AccessFs.fromAll ↔
      right = .truncate ∨ right = .ioctlDev := by
  cases right <;> decide

/-- The rules of a ruleset that was put in force. -/
structure InForce (host : LandlockHost) (tier : PermissionTier)
    (workspaceRoot : Str) (ruleset : Ruleset) (rootPlace : List Str)
    (granted : List AccessFs) : Prop where
  grants : grantedFor tier = .ok granted
  opened : host.openPath workspaceRoot = .ok rootPlace
  handled : ruleset.handled = AccessFs.fromAll
  rules : ∀ rule, rule ∈ ruleset.rules ↔
    rule = ⟨rootPlace, granted⟩ ∨
      (∃ path ∈ systemRxPaths ++ toolchainReadPaths host.env,
        ∃ top, host.openPath path = .ok top ∧
          rule = ⟨top, AccessFs.fromRead⟩) ∨
      tier = .workspaceWrite ∧
        ∃ path ∈ toolchainWritePaths host.env,
          ∃ top, host.openCreated path = .ok top ∧
            rule = ⟨top, AccessFs.fromAll⟩

theorem apply_inForce {ruleset : Ruleset}
    (applied : apply host tier workspaceRoot = .ok (some ruleset)) :
    ∃ rootPlace granted,
      InForce host tier workspaceRoot ruleset rootPlace granted := by
  unfold apply at applied
  split_ifs at applied with danger
  · cases applied
  obtain ⟨granted, grants, applied⟩ := bind_eq_ok_iff.mp applied
  obtain ⟨rootPlace, opened, applied⟩ := bind_eq_ok_iff.mp applied
  obtain ⟨⟨⟩, -, applied⟩ := bind_eq_ok_iff.mp applied
  obtain ⟨⟨⟩, -, applied⟩ := bind_eq_ok_iff.mp applied
  obtain ⟨⟨⟩, -, applied⟩ := bind_eq_ok_iff.mp applied
  obtain ⟨system, addedSystem, applied⟩ := bind_eq_ok_iff.mp applied
  obtain ⟨toolchain, addedToolchain, applied⟩ := bind_eq_ok_iff.mp applied
  obtain ⟨cached, addedCached, applied⟩ := bind_eq_ok_iff.mp applied
  obtain ⟨status, -, applied⟩ := bind_eq_ok_iff.mp applied
  obtain ⟨⟨⟩, -, applied⟩ := bind_eq_ok_iff.mp applied
  cases applied
  refine ⟨rootPlace, granted, grants, mapError_eq_ok_iff.mp opened, rfl, ?_⟩
  intro rule
  have fromToolchain := addExisting_eq addedToolchain rule
  have fromSystem := addExisting_eq addedSystem rule
  rw [List.mem_singleton] at fromSystem
  have written : rule ∈ cached ↔ rule ∈ toolchain ∨ tier = .workspaceWrite ∧
      ∃ path ∈ toolchainWritePaths host.env,
        ∃ top, host.openCreated path = .ok top ∧
          rule = ⟨top, AccessFs.fromAll⟩ := by
    unfold addCaches at addedCached
    split_ifs at addedCached with writes
    · rw [addExisting_eq addedCached rule, and_iff_right writes]
    · obtain rfl := Except.ok.inj addedCached
      simp [writes]
  simp only [written, fromToolchain, fromSystem, List.mem_append, or_and_right,
    exists_or, or_assoc]

/-- Where a tier may use a right to the filesystem. -/
def MayUse (host : LandlockHost) (tier : PermissionTier) (workspaceRoot : Str)
    (right : AccessFs) (place : List Str) : Prop :=
  right = .truncate ∨ right = .ioctlDev ∨
    right ∈ AccessFs.fromRead ∧
      Beneath host.openPath
        ([workspaceRoot] ++ (systemRxPaths ++ toolchainReadPaths host.env))
        place ∨
    tier = .workspaceWrite ∧ right ∈ AccessFs.fromAll ∧
      (Beneath host.openPath [workspaceRoot] place ∨
        Beneath host.openCreated (toolchainWritePaths host.env) place)

/-- Under the ruleset of a tier, the places where each right may be used. -/
theorem permits_inForce {ruleset : Ruleset}
    (applied : apply host tier workspaceRoot = .ok (some ruleset))
    (right : AccessFs) (place : List Str) :
    ruleset.Permits right place ↔
      MayUse host tier workspaceRoot right place := by
  obtain ⟨rootPlace, granted, inForce⟩ := apply_inForce applied
  have atRoot : Beneath host.openPath [workspaceRoot] place ↔
      rootPlace <+: place := by
    simp [Beneath, inForce.opened]
  have granting : right ∈ granted ↔ right ∈ AccessFs.fromRead ∨
      tier = .workspaceWrite ∧ right ∈ AccessFs.fromAll := by
    have grants := inForce.grants
    cases tier with
    | readOnly =>
        obtain rfl := Except.ok.inj grants
        simp
    | workspaceWrite =>
        obtain rfl := Except.ok.inj grants
        simp [AccessFs.fromAll]
    | dangerFullAccess => cases grants
  simp only [Ruleset.Permits, inForce.handled, inForce.rules, not_handled_iff,
    or_and_right, exists_or, and_assoc, exists_rule_iff, exists_and_left,
    exists_eq_left, granting, MayUse, beneath_append, atRoot]
  tauto

end

/-! ### A workspace and nothing else -/

/-- A host on which only the workspace can be opened. -/
def workspaceHost : LandlockHost where
  env _ := none
  openPath path :=
    if path = "/work".toList then .ok ["work".toList]
    else .error "No such file or directory (os error 2)".toList
  openCreated _ := .error "Permission denied (os error 13)".toList
  handleAccess := .ok ()
  create := .ok ()
  addRule _ := .ok ()
  restrictSelf := .ok ⟨.fullyEnforced, true, .available⟩

theorem permits_inForce_workspace :
    Ruleset.Permits ⟨AccessFs.fromAll, [⟨["work".toList], AccessFs.fromRead⟩]⟩
        .readFile ["work".toList, "notes".toList] ↔
      MayUse workspaceHost .readOnly "/work".toList .readFile
        ["work".toList, "notes".toList] :=
  permits_inForce rfl _ _

end TrustLayer.AgentGuard.Sandbox
