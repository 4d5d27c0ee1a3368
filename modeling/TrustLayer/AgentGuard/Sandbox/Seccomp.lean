import TrustLayer.AgentGuard.Sandbox
import TrustLayer.Library.Runs

/-!
# The syscall filter

A tier compiles to rules for the syscalls it lets through.  A syscall whose
arguments decide has a rule for each of its conditions, every other one a rule
without any.  A call that no rule matches gets `EPERM`.
-/

namespace TrustLayer.AgentGuard.Sandbox

open TrustLayer.Library

/-! ## The lists -/

def names (list : List String) : List Str :=
  list.map String.toList

def readonlyPureAllow : List Str := names
  ["read", "pread64", "readv", "preadv2", "write", "pwrite64", "writev",
    "pwritev2", "close", "dup", "dup2", "dup3", "lseek", "fcntl", "mmap",
    "munmap", "mremap", "brk", "mprotect", "madvise", "getpid", "getppid",
    "gettid", "getuid", "geteuid", "getgid", "getegid", "getcwd", "getpgrp",
    "getpgid", "setpgid", "getsid", "setsid", "prlimit64", "getrlimit",
    "sched_getaffinity", "tgkill", "execve", "execveat", "wait4", "waitid",
    "rt_sigprocmask", "rt_sigaction", "rt_sigreturn", "rt_sigtimedwait",
    "sigaltstack", "clock_gettime", "gettimeofday", "nanosleep",
    "clock_nanosleep", "restart_syscall", "getrandom", "prctl", "arch_prctl",
    "rseq", "set_tid_address", "set_robust_list", "futex", "futex_waitv",
    "sched_yield", "poll", "ppoll", "epoll_create1", "epoll_ctl",
    "epoll_wait", "epoll_pwait", "epoll_pwait2", "eventfd2", "exit",
    "exit_group", "stat", "lstat", "fstat", "newfstatat", "statx", "access",
    "faccessat", "faccessat2", "readlink", "readlinkat", "fstatfs", "statfs",
    "uname"]

def readonlyConditional : List Str := names ["openat", "open"]

def workspaceWriteAdditionsPureAllow : List Str := names
  ["clone3", "creat", "open", "openat", "mkdir", "mkdirat", "unlink",
    "unlinkat", "rmdir", "rename", "renameat", "renameat2", "link", "linkat",
    "symlink", "symlinkat", "ftruncate", "truncate", "fchmod", "fchmodat",
    "chmod", "utimensat", "umask", "pipe2", "pipe", "chdir", "fchdir",
    "getdents64", "getdents", "copy_file_range", "sendfile", "fchown",
    "fchownat", "lchown", "chown", "fallocate", "fsync", "fdatasync",
    "sync_file_range", "flock", "membarrier", "socketpair", "recvfrom",
    "recvmsg", "sendmsg", "sendto"]

def workspaceWriteAdditionsConditional : List Str := names
  ["openat", "open", "fcntl", "ioctl", "clone"]

def pureAllowFor : PermissionTier → List Str
  | .readOnly => readonlyPureAllow
  | .workspaceWrite => readonlyPureAllow ++ workspaceWriteAdditionsPureAllow
  | .dangerFullAccess => []

def conditionalFor : PermissionTier → List Str
  | .readOnly => readonlyConditional
  | .workspaceWrite => workspaceWriteAdditionsConditional
  | .dangerFullAccess => []

/-! ## The specification of the filter -/

inductive ArgOp where
  | eq
  | maskedEq (mask : UInt64)
  deriving DecidableEq

/-- A condition on the low 32 bits of an argument. -/
structure ArgCondition where
  index : Fin 6
  op : ArgOp
  val : UInt64
  deriving DecidableEq

structure SyscallRule where
  syscall : Str
  args : List ArgCondition
  deriving DecidableEq

structure FilterSpec where
  mismatchErrno : Nat
  filter : List SyscallRule

def eperm : Nat := 1

def oAccmode : UInt64 := 3

/-- `F_GETFL`, `F_SETFL`, `F_GETFD`, `F_SETFD`, `F_DUPFD`,
`F_DUPFD_CLOEXEC`. -/
def fcntlCommands : List UInt64 := [3, 4, 1, 2, 0, 1030]

/-- `TIOCGWINSZ`, `FIOCLEX`, `FIONCLEX`, `FIONBIO`, `FIONREAD`. -/
def ioctlRequests : List UInt64 := [0x5413, 0x5451, 0x5450, 0x5421, 0x541B]

/-- The `CLONE_NEW*` bits. -/
def cloneNsMask : UInt64 := 0x7E020000

def plainRule (syscall : Str) : SyscallRule :=
  ⟨syscall, []⟩

def argRule (syscall : String) (index : Fin 6) (op : ArgOp) (val : UInt64) :
    SyscallRule :=
  ⟨syscall.toList, [⟨index, op, val⟩]⟩

def hasConditional (tier : PermissionTier) (syscall : Str) : Bool :=
  (conditionalFor tier).contains syscall

def conditionalRules : PermissionTier → List SyscallRule
  | .readOnly =>
      [argRule "openat" 2 (.maskedEq oAccmode) 0,
        argRule "open" 1 (.maskedEq oAccmode) 0]
  | .workspaceWrite =>
      [plainRule "openat".toList, plainRule "open".toList] ++
        fcntlCommands.map (argRule "fcntl" 1 .eq) ++
        ioctlRequests.map (argRule "ioctl" 1 .eq) ++
        [argRule "clone" 0 (.maskedEq cloneNsMask) 0]
  | .dangerFullAccess => []

def buildJsonSpec (tier : PermissionTier) : FilterSpec :=
  { mismatchErrno := eperm
    filter :=
      ((pureAllowFor tier).filter fun syscall => !hasConditional tier syscall).map
          plainRule ++
        conditionalRules tier }

/-! ## What a filter lets through -/

/-- A call of a process, by name and registers. -/
structure Syscall where
  name : Str
  args : Fin 6 → UInt64

/-- The low half of an argument. -/
def Syscall.dword (call : Syscall) (index : Fin 6) : UInt32 :=
  (call.args index).toUInt32

def ArgCondition.holds (condition : ArgCondition) (call : Syscall) : Bool :=
  let dword := call.dword condition.index
  match condition.op with
  | .eq => dword == condition.val.toUInt32
  | .maskedEq mask =>
      dword &&& mask.toUInt32 == condition.val.toUInt32 &&& mask.toUInt32

def SyscallRule.covers (rule : SyscallRule) (call : Syscall) : Bool :=
  rule.syscall == call.name && rule.args.all (·.holds call)

def FilterSpec.permits (spec : FilterSpec) (call : Syscall) : Bool :=
  spec.filter.any (·.covers call)

/-- `DangerFullAccess` installs no filter. -/
def permits (tier : PermissionTier) (call : Syscall) : Bool :=
  match tier with
  | .dangerFullAccess => true
  | tier => (buildJsonSpec tier).permits call

theorem permits_of_ne {tier : PermissionTier}
    (filtered : tier ≠ .dangerFullAccess) (call : Syscall) :
    permits tier call = (buildJsonSpec tier).permits call := by
  cases tier with
  | dangerFullAccess => exact absurd rfl filtered
  | readOnly => rfl
  | workspaceWrite => rfl

/-! ## What each tier grants -/

/-- The flags that give a process a namespace of its own: `CLONE_NEWNS`,
`CLONE_NEWCGROUP`, `CLONE_NEWUTS`, `CLONE_NEWIPC`, `CLONE_NEWUSER`,
`CLONE_NEWPID`, `CLONE_NEWNET`. -/
def cloneNewFlags : List UInt32 :=
  [0x00020000, 0x02000000, 0x04000000, 0x08000000, 0x10000000, 0x20000000,
    0x40000000]

/-- An `open` by its flags: `O_RDONLY` is the access mode 0. -/
def OpensReadOnly (call : Syscall) : Prop :=
  call.name = "openat".toList ∧ (call.dword 2).toNat % 4 = 0 ∨
    call.name = "open".toList ∧ (call.dword 1).toNat % 4 = 0

/-- The second register has one of the values. -/
def Commands (call : Syscall) (name : String) (values : List UInt64) : Prop :=
  call.name = name.toList ∧ ∃ value ∈ values, call.dword 1 = value.toUInt32

def ClonesInPlace (call : Syscall) : Prop :=
  call.name = "clone".toList ∧ ∀ flag ∈ cloneNewFlags, call.dword 0 &&& flag = 0

def Granted (tier : PermissionTier) (call : Syscall) : Prop :=
  match tier with
  | .readOnly => call.name ∈ readonlyPureAllow ∨ OpensReadOnly call
  | .workspaceWrite =>
      call.name ∈ readonlyPureAllow ∧ call.name ≠ "fcntl".toList ∨
        call.name ∈ workspaceWriteAdditionsPureAllow ∨
        Commands call "fcntl" fcntlCommands ∨
        Commands call "ioctl" ioctlRequests ∨ ClonesInPlace call
  | .dangerFullAccess => True

section

variable {tier : PermissionTier} {call : Syscall}

theorem covers_plainRule {syscall : Str} :
    (plainRule syscall).covers call = true ↔ call.name = syscall := by
  rw [SyscallRule.covers, plainRule, List.all_nil, Bool.and_true, beq_iff_eq]
  exact eq_comm

theorem covers_argRule {syscall : String} {index : Fin 6} {op : ArgOp}
    {val : UInt64} :
    (argRule syscall index op val).covers call = true ↔
      call.name = syscall.toList ∧
        (ArgCondition.mk index op val).holds call = true := by
  rw [SyscallRule.covers, argRule, Bool.and_eq_true, beq_iff_eq,
    List.all_cons, List.all_nil, Bool.and_true]
  exact and_congr_left fun _ => eq_comm

theorem holds_maskedEq {index : Fin 6} {mask : UInt64} :
    (ArgCondition.mk index (.maskedEq mask) 0).holds call = true ↔
      call.dword index &&& mask.toUInt32 = 0 := by
  simp [ArgCondition.holds]

theorem holds_eq {index : Fin 6} {val : UInt64} :
    (ArgCondition.mk index .eq val).holds call = true ↔
      call.dword index = val.toUInt32 := by
  simp [ArgCondition.holds]

/-- The manifest names exactly the syscalls that have rules of their own, so
that no syscall is skipped without one or has two kinds of rules. -/
theorem mem_conditionalFor_iff {syscall : Str} :
    syscall ∈ conditionalFor tier ↔
      ∃ rule ∈ conditionalRules tier, rule.syscall = syscall := by
  have listed : conditionalFor tier ⊆
        (conditionalRules tier).map SyscallRule.syscall ∧
      (conditionalRules tier).map SyscallRule.syscall ⊆
        conditionalFor tier := by
    cases tier <;> decide
  rw [← List.mem_map]
  exact ⟨fun member => listed.1 member, fun member => listed.2 member⟩

theorem permits_buildJsonSpec :
    (buildJsonSpec tier).permits call = true ↔
      call.name ∈ pureAllowFor tier ∧ call.name ∉ conditionalFor tier ∨
        ∃ rule ∈ conditionalRules tier, rule.covers call = true := by
  simp only [FilterSpec.permits, buildJsonSpec, List.any_append, List.any_map,
    Bool.or_eq_true, List.any_eq_true, List.mem_filter, hasConditional,
    Function.comp_apply, covers_plainRule, Bool.not_eq_true',
    List.contains_eq_mem, decide_eq_false_iff_not]
  constructor
  · rintro (⟨syscall, kept, same⟩ | conditional)
    · exact .inl (same ▸ kept)
    · exact .inr conditional
  · rintro (kept | conditional)
    · exact .inl ⟨call.name, kept, rfl⟩
    · exact .inr conditional

/-! ### The conditions -/

theorem and_or_eq_zero_iff {value first second : UInt32} :
    value &&& (first ||| second) = 0 ↔
      value &&& first = 0 ∧ value &&& second = 0 := by
  have distrib : value &&& (first ||| second) =
      value &&& first ||| value &&& second :=
    UInt32.toBitVec_inj.mp BitVec.and_or_distrib_left
  rw [distrib, UInt32.or_eq_zero_iff]

/-- A mask meets none of the bits exactly when no flag in it is set. -/
theorem and_foldr_eq_zero_iff {value : UInt32} (flags : List UInt32) :
    value &&& flags.foldr (· ||| ·) 0 = 0 ↔
      ∀ flag ∈ flags, value &&& flag = 0 := by
  induction flags with
  | nil => simp
  | cons flag flags induction =>
      rw [List.foldr_cons, and_or_eq_zero_iff, induction, List.forall_mem_cons]

theorem cloneNsMask_eq :
    cloneNsMask.toUInt32 = cloneNewFlags.foldr (· ||| ·) 0 := by
  decide

theorem accessMode_eq_zero_iff {flags : UInt32} :
    flags &&& oAccmode.toUInt32 = 0 ↔ flags.toNat % 4 = 0 := by
  have mode : (flags &&& oAccmode.toUInt32).toNat = flags.toNat % 4 := by
    rw [UInt32.toNat_and]
    exact Nat.and_two_pow_sub_one_eq_mod flags.toNat 2
  rw [← mode, ← UInt32.toNat_inj]
  rfl

theorem conditionalRules_readOnly :
    (∃ rule ∈ conditionalRules .readOnly, rule.covers call = true) ↔
      OpensReadOnly call := by
  simp only [conditionalRules, List.mem_cons, List.not_mem_nil, or_false,
    exists_eq_or_imp, exists_eq_left, covers_argRule, holds_maskedEq,
    accessMode_eq_zero_iff, OpensReadOnly]

theorem covers_map_argRule {name : String} {values : List UInt64} :
    (∃ rule ∈ values.map (argRule name 1 .eq), rule.covers call = true) ↔
      Commands call name values := by
  simp only [List.mem_map, exists_exists_and_eq_and, covers_argRule, holds_eq,
    Commands]
  constructor
  · rintro ⟨value, listed, same, found⟩
    exact ⟨same, value, listed, found⟩
  · rintro ⟨same, value, listed, found⟩
    exact ⟨value, listed, same, found⟩

theorem conditionalRules_workspaceWrite :
    (∃ rule ∈ conditionalRules .workspaceWrite, rule.covers call = true) ↔
      call.name = "openat".toList ∨ call.name = "open".toList ∨
        Commands call "fcntl" fcntlCommands ∨
        Commands call "ioctl" ioctlRequests ∨ ClonesInPlace call := by
  simp only [conditionalRules, List.mem_append, or_and_right, exists_or,
    covers_map_argRule, List.mem_cons, List.not_mem_nil, or_false,
    exists_eq_left, covers_plainRule, covers_argRule, holds_maskedEq,
    cloneNsMask_eq, and_foldr_eq_zero_iff, ClonesInPlace, or_assoc]

/-- For every call, what each tier lets through. -/
theorem permits_iff (tier : PermissionTier) (call : Syscall) :
    permits tier call = true ↔ Granted tier call := by
  cases tier with
  | dangerFullAccess => exact iff_of_true rfl trivial
  | readOnly =>
      have apart : call.name ∈ readonlyPureAllow →
          call.name ∉ readonlyConditional := by
        have disjoint : ∀ syscall ∈ readonlyPureAllow,
            syscall ∉ readonlyConditional := by decide
        exact disjoint call.name
      rw [permits, permits_buildJsonSpec, conditionalRules_readOnly, Granted,
        pureAllowFor, conditionalFor, and_iff_left_of_imp apart]
      exact nofun
  | workspaceWrite =>
      have kept : ∀ syscall ∈ readonlyPureAllow,
          syscall ∈ workspaceWriteAdditionsConditional →
            syscall = "fcntl".toList := by decide
      have added : ∀ syscall ∈ workspaceWriteAdditionsPureAllow,
          syscall ∈ workspaceWriteAdditionsConditional →
            syscall = "openat".toList ∨ syscall = "open".toList := by decide
      have openers : "openat".toList ∈ workspaceWriteAdditionsPureAllow ∧
          "open".toList ∈ workspaceWriteAdditionsPureAllow := by decide
      have narrowed : "fcntl".toList ∈ workspaceWriteAdditionsConditional := by
        decide
      rw [permits, permits_buildJsonSpec, conditionalRules_workspaceWrite,
        Granted, pureAllowFor, conditionalFor, List.mem_append]
      · constructor
        · rintro (⟨base | more, plain⟩ | same | same | conditional)
          · exact .inl ⟨base, fun same => plain (same ▸ narrowed)⟩
          · exact .inr (.inl more)
          · exact .inr (.inl (same ▸ openers.1))
          · exact .inr (.inl (same ▸ openers.2))
          · exact .inr (.inr conditional)
        · rintro (⟨base, other⟩ | more | conditional)
          · exact .inl ⟨.inl base, fun listed => other (kept _ base listed)⟩
          · by_cases listed : call.name ∈ workspaceWriteAdditionsConditional
            · rcases added _ more listed with same | same
              · exact .inr (.inl same)
              · exact .inr (.inr (.inl same))
            · exact .inl ⟨.inr more, listed⟩
          · exact .inr (.inr (.inr conditional))
      · exact nofun

/-- The one thing `ReadOnly` lets through that `WorkspaceWrite` does not: an
`fcntl` with another command. -/
theorem permits_readOnly_not_workspaceWrite_iff (call : Syscall) :
    permits .readOnly call = true ∧ permits .workspaceWrite call = false ↔
      call.name = "fcntl".toList ∧
        ∀ command ∈ fcntlCommands, call.dword 1 ≠ command.toUInt32 := by
  rw [permits_iff, ← Bool.not_eq_true, permits_iff]
  have openers : "openat".toList ∈ workspaceWriteAdditionsPureAllow ∧
      "open".toList ∈ workspaceWriteAdditionsPureAllow := by decide
  have base : "fcntl".toList ∈ readonlyPureAllow := by decide
  have alone : "fcntl".toList ∉ workspaceWriteAdditionsPureAllow ∧
      "fcntl".toList ≠ "ioctl".toList ∧
      "fcntl".toList ≠ "clone".toList := by decide
  constructor
  · rintro ⟨granted | ⟨same, -⟩ | ⟨same, -⟩, refused⟩
    · have same : call.name = "fcntl".toList := by
        by_contra other
        exact refused (.inl ⟨granted, other⟩)
      refine ⟨same, fun command listed found => refused ?_⟩
      exact .inr (.inr (.inl ⟨same, command, listed, found⟩))
    · exact absurd (.inr (.inl (same ▸ openers.1))) refused
    · exact absurd (.inr (.inl (same ▸ openers.2))) refused
  · rintro ⟨same, other⟩
    refine ⟨.inl (same ▸ base), ?_⟩
    rintro (⟨-, different⟩ | more | ⟨-, command, listed, found⟩ |
      ⟨requests, -⟩ | ⟨clones, -⟩)
    · exact different same
    · exact alone.1 (same ▸ more)
    · exact other command listed found
    · exact alone.2.1 (same.symm.trans requests)
    · exact alone.2.2 (same.symm.trans clones)

/-! ## What stays out of reach -/

/-- The hard network denial, and the ways out of the sandbox. -/
def neverAllowed : List Str := names
  ["socket", "connect", "bind", "listen", "accept", "accept4", "sendto",
    "socketcall", "ptrace", "process_vm_readv", "process_vm_writev",
    "perf_event_open", "unshare", "setns", "kexec_load", "init_module",
    "finit_module", "delete_module", "reboot", "mount", "umount2",
    "pivot_root", "swapon", "swapoff", "io_uring_setup", "io_uring_enter",
    "openat2", "landlock_create_ruleset", "landlock_add_rule",
    "landlock_restrict_self"]

theorem granted_neverAllowed (filtered : tier ≠ .dangerFullAccess)
    (listed : call.name ∈ neverAllowed) :
    Granted tier call ↔
      tier = .workspaceWrite ∧ call.name = "sendto".toList := by
  have base : ∀ syscall ∈ neverAllowed, syscall ∉ readonlyPureAllow := by
    decide
  have additions : ∀ syscall ∈ neverAllowed,
      syscall ∈ workspaceWriteAdditionsPureAllow ↔
        syscall = "sendto".toList := by decide
  have conditional : ∀ syscall ∈ neverAllowed,
      syscall ∉ workspaceWriteAdditionsConditional := by decide
  have openat : "openat".toList ∈ workspaceWriteAdditionsConditional := by
    decide
  have plainOpen : "open".toList ∈ workspaceWriteAdditionsConditional := by
    decide
  have others : "fcntl".toList ∈ workspaceWriteAdditionsConditional ∧
      "ioctl".toList ∈ workspaceWriteAdditionsConditional ∧
      "clone".toList ∈ workspaceWriteAdditionsConditional := by decide
  have apart := conditional _ listed
  cases tier with
  | dangerFullAccess => exact absurd rfl filtered
  | readOnly =>
      refine iff_of_false ?_ (by simp)
      rintro (granted | ⟨same, -⟩ | ⟨same, -⟩)
      · exact base _ listed granted
      · exact apart (same ▸ openat)
      · exact apart (same ▸ plainOpen)
  | workspaceWrite =>
      rw [and_iff_right rfl, ← additions _ listed]
      constructor
      · rintro (⟨granted, -⟩ | more | ⟨same, -⟩ | ⟨same, -⟩ | ⟨same, -⟩)
        · exact absurd granted (base _ listed)
        · exact more
        · exact absurd (same ▸ others.1) apart
        · exact absurd (same ▸ others.2.1) apart
        · exact absurd (same ▸ others.2.2) apart
      · exact fun more => .inr (.inl more)

end

/-- The syscalls that a filter is to keep out of reach. -/
def Keeps (tier : PermissionTier) (syscalls : List Str) : Prop :=
  Confines (fun call => permits tier call = true)
    fun call : Syscall => call.name ∈ syscalls

/-- Whatever a kernel does, no run of calls that pass the filter does what only
these syscalls can do; `sendto` is the exception of `WorkspaceWrite`. -/
theorem keeps_iff (tier : PermissionTier) (syscalls : List Str)
    (listed : syscalls ⊆ neverAllowed) :
    Keeps tier syscalls ↔
      syscalls = [] ∨ tier = .readOnly ∨
        tier = .workspaceWrite ∧ "sendto".toList ∉ syscalls := by
  rw [Keeps, confines_iff]
  constructor
  · intro refuses
    cases tier with
    | readOnly => exact .inr (.inl rfl)
    | workspaceWrite =>
        refine .inr (.inr ⟨rfl, fun member => ?_⟩)
        apply refuses ⟨"sendto".toList, fun _ => 0⟩ member
        have exception := @granted_neverAllowed .workspaceWrite
          ⟨"sendto".toList, fun _ => 0⟩ (by decide) (listed member)
        exact (permits_iff _ _).mpr (exception.mpr ⟨rfl, rfl⟩)
    | dangerFullAccess =>
        refine .inl (List.eq_nil_iff_forall_not_mem.mpr fun syscall member => ?_)
        exact refuses ⟨syscall, fun _ => 0⟩ member rfl
  · rintro (rfl | rfl | ⟨rfl, spared⟩) call member passes
    · exact List.not_mem_nil member
    · have exception := @granted_neverAllowed .readOnly call (by decide)
        (listed member)
      cases (exception.mp ((permits_iff _ _).mp passes)).1
    · have exception := @granted_neverAllowed .workspaceWrite call (by decide)
        (listed member)
      have same := (exception.mp ((permits_iff _ _).mp passes)).2
      exact spared (same ▸ member)

theorem keeps_iff_network :
    Keeps .workspaceWrite ["socket".toList, "connect".toList] ↔
      ["socket".toList, "connect".toList] = [] ∨
        PermissionTier.workspaceWrite = .readOnly ∨
        PermissionTier.workspaceWrite = .workspaceWrite ∧
          "sendto".toList ∉ ["socket".toList, "connect".toList] :=
  keeps_iff .workspaceWrite _ (by decide)

end TrustLayer.AgentGuard.Sandbox
