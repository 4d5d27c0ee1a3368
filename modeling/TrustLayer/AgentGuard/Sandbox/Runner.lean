import TrustLayer.AgentGuard.Audit
import TrustLayer.AgentGuard.Sandbox.Landlock

/-!
# What the command is given

The directory it starts in, its environment, and the descriptors that are left
open for it.
-/

namespace TrustLayer.AgentGuard.Sandbox

open TrustLayer.Library
open TrustLayer.Library.Pathname
open TrustLayer.AgentGuard.Pathsafe

/-! ## The working directory -/

/-- `env::current_dir`: a place without a link on it. -/
structure CurrentDir (files : FileSystem) where
  names : List Str
  settled : files.Settled names
  proper : ∀ name ∈ names, IsName name

/-- `Path::starts_with`, by components. -/
def startsWith (path base : Str) : Bool :=
  (toSegs base).isPrefixOf (toSegs path)

/-- Two paths are compared by their components. -/
def isStrictDescendant (child root : Str) : Bool :=
  if toSegs child = toSegs root then false else startsWith child root

section

variable {files : FileSystem}

/-- What the paths of a request are resolved in, and the texts of the errors. -/
structure Surroundings (files : FileSystem) where
  currentDir : Except IoError (CurrentDir files)
  ioText : IoError → Str

namespace Surroundings

variable (here : Surroundings files)

def canonicalize (path : Str) : Except IoError Str :=
  canonicalizeRecursive files (here.currentDir.map CurrentDir.names) path

def canonicalizeNamed (name : String) (path : Str) : Except SandboxError Str :=
  (here.canonicalize path).mapError fun error =>
    .workdir ("cannot canonicalize ".toList ++ name.toList ++ ' ' :: path ++
      ": ".toList ++ here.ioText error)

def validateWorkdir (workdir workspaceRoot : Str) : Except SandboxError Str := do
  let root ← here.canonicalizeNamed "workspace_root" workspaceRoot
  let work ← here.canonicalizeNamed "workdir" workdir
  if toSegs work ≠ toSegs root ∧ isStrictDescendant work root = false then
    .error (.workdir ("workdir escapes workspace_root: workdir=".toList ++
      work ++ " root=".toList ++ root))
  else .ok work

/-- The place that a path is resolved from. -/
def StartsAt (path : Str) (top : List Str) : Prop :=
  if isAbsolute path then top = []
  else ∃ dir, here.currentDir = .ok dir ∧ dir.names = top

/-- The path is resolved to the place with the names, which has no link on it;
it is what the path denotes, if the resolution does not leave a file. -/
structure Resolves (path : Str) (names : List Str) : Prop where
  canonical : here.canonicalize path = .ok (render names)
  proper : ∀ name ∈ names, IsName name
  ends : ∃ top, here.StartsAt path top ∧
    EndsAt files names ⟨top, Segment.all path⟩

end Surroundings

/-! ### Components -/

theorem toSegs_render {names : List Str} (proper : ∀ name ∈ names, IsName name) :
    toSegs (render names) = .root :: names.map .normal := by
  rw [toSegs_eq, if_pos (isAbsolute_render names), Segment.all_render proper]
  split_ifs with none
  · subst none
    rfl
  · rw [List.filterMap_map]
    simp [Function.comp_def, Seg.ofSegment]

theorem map_normal_isPrefixOf {names others : List Str} :
    (names.map Seg.normal).isPrefixOf (others.map Seg.normal) = true ↔
      names <+: others := by
  rw [List.isPrefixOf_iff_prefix]
  exact List.prefix_map_iff_of_injective fun _ _ same => Seg.normal.inj same

theorem startsWith_render {names others : List Str}
    (proper : ∀ name ∈ names, IsName name)
    (otherProper : ∀ name ∈ others, IsName name) :
    startsWith (render others) (render names) = true ↔ names <+: others := by
  rw [startsWith, toSegs_render proper, toSegs_render otherProper,
    List.isPrefixOf_cons_cons_self, map_normal_isPrefixOf]

/-! ### Resolution -/

namespace Surroundings

variable {here : Surroundings files} {path : Str}

theorem startsAt_of_start {walk : Walk}
    (started : start (here.currentDir.map CurrentDir.names) path = .ok walk) :
    ∃ top, here.StartsAt path top ∧ files.Settled top ∧
      (∀ name ∈ top, IsName name) ∧
      walk = ⟨0, top, toSegs path⟩ := by
  unfold start at started
  unfold StartsAt
  cases absolute : isAbsolute path with
  | true =>
      rw [absolute, if_pos rfl] at started
      cases started
      exact ⟨[], rfl, FileSystem.settled_nil, nofun, rfl⟩
  | false =>
      rw [absolute] at started
      cases current : here.currentDir with
      | error error =>
          rw [current] at started
          cases started
      | ok dir =>
          rw [current] at started
          cases started
          exact ⟨dir.names, ⟨dir, rfl, rfl⟩, dir.settled, dir.proper, rfl⟩

theorem canonicalize_ok {result : Str}
    (ok : here.canonicalize path = .ok result) :
    ∃ names, result = render names ∧ here.Resolves path names := by
  have whole := ok
  obtain ⟨walk, started, ok⟩ := bind_eq_ok_iff.mp ok
  obtain ⟨names, walked, ok⟩ := bind_eq_ok_iff.mp ok
  obtain rfl := Except.ok.inj ok
  obtain ⟨top, startsAt, settled, properTop, rfl⟩ := startsAt_of_start started
  have properStart : Proper ⟨0, top, toSegs path⟩ :=
    ⟨properTop, fun _ => isName_of_mem_toSegs⟩
  obtain ⟨hops, proper⟩ := run_keeps
    (fun _ _ proper turns => Proper.turn proper turns) properStart walked
  have entered : (if isAbsolute path then [] else top) = top := by
    unfold StartsAt at startsAt
    split_ifs at startsAt ⊢ with absolute
    · exact startsAt.symm
    · rfl
  have segments := @run_toSegs files path 0 top [] path
  rw [entered, List.append_nil, List.append_nil, walked] at segments
  exact ⟨names, rfl, whole, proper.resolved, top, startsAt,
    run_ok 0 ⟨top, Segment.all path⟩ settled segments.symm⟩

/-- A directory is accepted exactly when it lies beneath the root, both by
their places without links. -/
theorem validateWorkdir_iff (here : Surroundings files)
    (workdir workspaceRoot work : Str) :
    here.validateWorkdir workdir workspaceRoot = .ok work ↔
      ∃ top names, here.Resolves workspaceRoot top ∧
        here.Resolves workdir names ∧ top <+: names ∧ work = render names := by
  unfold validateWorkdir canonicalizeNamed
  constructor
  · intro validated
    obtain ⟨root, rootFound, validated⟩ := bind_eq_ok_iff.mp validated
    obtain ⟨found, workFound, validated⟩ := bind_eq_ok_iff.mp validated
    obtain ⟨top, rfl, rootResolves⟩ :=
      canonicalize_ok (mapError_eq_ok_iff.mp rootFound)
    obtain ⟨names, rfl, workResolves⟩ :=
      canonicalize_ok (mapError_eq_ok_iff.mp workFound)
    split_ifs at validated with escapes
    refine ⟨top, names, rootResolves, workResolves, ?_,
      (Except.ok.inj validated).symm⟩
    rw [← startsWith_render rootResolves.proper workResolves.proper]
    by_contra outside
    refine escapes ⟨fun same => outside ?_, ?_⟩
    · rw [startsWith, same]
      exact List.isPrefixOf_iff_prefix.mpr List.prefix_rfl
    · rw [isStrictDescendant, eq_false_of_ne_true outside, ite_self]
  · rintro ⟨top, names, rootResolves, workResolves, beneath, rfl⟩
    have within :=
      (startsWith_render rootResolves.proper workResolves.proper).mpr beneath
    rw [rootResolves.canonical, workResolves.canonical]
    refine if_neg ?_
    rintro ⟨other, outside⟩
    rw [isStrictDescendant, if_neg other, within] at outside
    cases outside

end Surroundings

namespace CurrentDir

/-- Where a process starts that was never moved. -/
def root (files : FileSystem) : CurrentDir files :=
  ⟨[], FileSystem.settled_nil, nofun⟩

def enter (dir : CurrentDir files) {name : Str} (named : IsName name)
    (here : files.node dir.names = .directory)
    (directory : files.node (dir.names ++ [name]) = .directory) :
    CurrentDir files where
  names := dir.names ++ [name]
  settled := dir.settled.concat here (.inl directory)
  proper := by
    intro other member
    rcases List.mem_append.mp member with among | last
    · exact dir.proper other among
    · exact List.mem_singleton.mp last ▸ named

end CurrentDir

/-- The directory `/home`, with a link in it to itself. -/
def homeDir : CurrentDir homeFiles :=
  @CurrentDir.enter _ (.root homeFiles) "home".toList ⟨by decide, by decide⟩ rfl
    rfl

example : Surroundings.validateWorkdir ⟨.ok homeDir, fun _ => []⟩ "me".toList
    ".".toList = .ok "/home".toList := by
  let here : Surroundings homeFiles := ⟨.ok homeDir, fun _ => []⟩
  have root : here.canonicalize ".".toList = .ok "/home".toList := by
    have walked : run homeFiles ".".toList
        ⟨0, ["home".toList], toSegs ".".toList⟩ = .ok ["home".toList] := run_nil
    exact congrArg (· >>= fun names => pure (render names)) walked
  have work : here.canonicalize "me".toList = .ok "/home".toList := by
    have walked : run homeFiles "me".toList
        ⟨0, ["home".toList], toSegs "me".toList⟩ = .ok ["home".toList] :=
      run_cons.trans run_nil
    exact congrArg (· >>= fun names => pure (render names)) walked
  change here.validateWorkdir "me".toList ".".toList = _
  rw [Surroundings.validateWorkdir, Surroundings.canonicalizeNamed, root,
    Surroundings.canonicalizeNamed, work]
  rfl

end

/-! ## The environment -/

def allowedNames : List Str := names
  ["PATH", "HOME", "USER", "LOGNAME", "SHELL", "TERM", "LANG", "LC_ALL", "PWD",
    "TZ", "RUSTUP_HOME", "CARGO_HOME", "GOROOT", "GOPATH", "GOMODCACHE",
    "GOCACHE"]

def nul : Char := Char.ofNat 0

/-- `CString::new(..).ok()`. -/
def cString (text : Str) : Option Str :=
  if nul ∈ text then none else some text

/-- The name of the variable is handed on. -/
def Passes (key : Str) : Prop :=
  '=' ∉ key ∧ nul ∉ key ∧ key ≠ "TMPDIR".toList ∧
    (key ∈ allowedNames ∨ Audit.isSecretName key = false)

instance (key : Str) : Decidable (Passes key) := by
  unfold Passes
  infer_instance

/-- The body of the loop; a name or a value may not be UTF-8. -/
def passedOn : Option Str × Option Str → Option Str
  | (some key, some val) =>
      if Passes key then cString (key ++ '=' :: val) else none
  | _ => none

def buildSanitizedEnv (vars : List (Option Str × Option Str)) (tmpdir : Str) :
    List Str :=
  vars.filterMap passedOn ++ (cString ("TMPDIR=".toList ++ tmpdir)).toList

/-- The name that an entry sets. -/
def entryName (entry : Str) : Str :=
  entry.takeWhile (· ≠ '=')

theorem entryName_cons {key val : Str} (plain : '=' ∉ key) :
    entryName (key ++ '=' :: val) = key := by
  rw [entryName, List.takeWhile_append_of_pos]
  · simp
  · intro char member
    simpa using fun same : char = '=' => plain (same ▸ member)

theorem cString_eq_some_iff {text entry : Str} :
    cString text = some entry ↔ nul ∉ entry ∧ entry = text := by
  unfold cString
  split_ifs with inside
  · simp only [false_iff, not_and]
    rintro clean rfl
    exact clean inside
  · constructor
    · rintro ⟨⟩
      exact ⟨inside, rfl⟩
    · rintro ⟨-, rfl⟩
      rfl

theorem mem_passedOn_iff {vars : List (Option Str × Option Str)}
    {entry : Str} :
    entry ∈ vars.filterMap passedOn ↔
      ∃ key val, (some key, some val) ∈ vars ∧ Passes key ∧ nul ∉ entry ∧
        entry = key ++ '=' :: val := by
  rw [List.mem_filterMap]
  constructor
  · rintro ⟨⟨_ | key, _ | val⟩, member, passed⟩
    · cases passed
    · cases passed
    · cases passed
    · obtain ⟨passes, made⟩ := Option.ite_none_right_eq_some.mp passed
      obtain ⟨clean, same⟩ := cString_eq_some_iff.mp made
      exact ⟨key, val, member, passes, clean, same⟩
  · rintro ⟨key, val, member, passes, clean, same⟩
    refine ⟨(some key, some val), member, ?_⟩
    exact (if_pos passes).trans (cString_eq_some_iff.mpr ⟨clean, same⟩)

/-- What a command finds in its environment, by name: a value of the host under
a name that is handed on, and the scratch directory as the only `TMPDIR`. -/
theorem mem_buildSanitizedEnv_iff (vars : List (Option Str × Option Str))
    (tmpdir entry : Str) :
    entry ∈ buildSanitizedEnv vars tmpdir ↔
      nul ∉ entry ∧
        if entryName entry = "TMPDIR".toList then
          entry = "TMPDIR=".toList ++ tmpdir
        else
          (entryName entry ∈ allowedNames ∨
              Audit.isSecretName (entryName entry) = false) ∧
            ∃ val, (some (entryName entry), some val) ∈ vars ∧
              entry = entryName entry ++ '=' :: val := by
  have scratch : entryName ("TMPDIR=".toList ++ tmpdir) = "TMPDIR".toList :=
    @entryName_cons "TMPDIR".toList tmpdir (by decide)
  rw [buildSanitizedEnv, List.mem_append, mem_passedOn_iff, Option.mem_toList,
    cString_eq_some_iff]
  constructor
  · rintro (⟨key, val, member, ⟨plain, -, other, passes⟩, whole, rfl⟩ |
      ⟨whole, rfl⟩)
    · rw [entryName_cons plain, if_neg other]
      exact ⟨whole, passes, val, member, rfl⟩
    · rw [scratch, if_pos rfl]
      exact ⟨whole, rfl⟩
  · rintro ⟨whole, found⟩
    split_ifs at found with own
    · exact .inr ⟨whole, found⟩
    · obtain ⟨passes, val, member, same⟩ := found
      refine .inl ⟨entryName entry, val, member, ?_, whole, same⟩
      have clean : nul ∉ entryName entry :=
        fun inside => whole ((List.takeWhile_prefix _).subset inside)
      refine ⟨fun inside => ?_, clean, own, passes⟩
      have different := List.mem_takeWhile_imp inside
      simp at different

/-! ## The descriptors -/

/-- A descriptor: a `c_int` that is not negative. -/
abbrev Fd := Fin (2 ^ 31)

/-- How the kernel takes `close_range`, and the soft limit of descriptors. -/
structure CloseHost where
  /-- The error that every call gets, if there is one. -/
  closeRangeErrno : Option Nat
  /-- `rlim_cur` of `RLIMIT_NOFILE`. -/
  nofile : Option UInt64

def rlimInfinity : UInt64 := 0xFFFFFFFFFFFFFFFF

def maxUint : UInt32 := 0xFFFFFFFF

def CloseHost.limit (host : CloseHost) : UInt32 :=
  match host.nofile with
  | some cur =>
      if cur ≠ rlimInfinity ∧ 0 < cur then
        (min cur maxUint.toUInt64).toUInt32
      else 4096
  | none => 4096

/-- The descriptor is within reach of what the host has to close it with. -/
def CloseHost.Reaches (host : CloseHost) (fd : Fd) : Prop :=
  host.closeRangeErrno = none ∨
    host.closeRangeErrno = some enosys ∧ fd.val ≤ host.limit.toNat

instance (host : CloseHost) (fd : Fd) : Decidable (host.Reaches fd) := by
  unfold CloseHost.Reaches
  infer_instance

theorem toNat_lt_of_ne {fd upper : UInt32} (within : fd ≤ upper)
    (other : fd ≠ upper) : fd.toNat < upper.toNat := by
  have atMost := UInt32.le_iff_toNat_le.mp within
  have different : fd.toNat ≠ upper.toNat :=
    fun same => other (UInt32.toNat_inj.mp same)
  omega

/-- The counter does not wrap before the last descriptor. -/
theorem toNat_succ_of_ne {fd upper : UInt32} (within : fd ≤ upper)
    (other : fd ≠ upper) : (fd + 1).toNat = fd.toNat + 1 := by
  have below := toNat_lt_of_ne within other
  have bound := upper.toNat_lt
  rw [UInt32.toNat_add, UInt32.toNat_one]
  exact Nat.mod_eq_of_lt (by omega)

section

variable {δ : Type}

/-- `close`; no descriptor is negative as a `c_int`. -/
def closeFd (fd : UInt32) (table : Fd → Option δ) : Fd → Option δ :=
  fun other => if other.val = fd.toNat then none else table other

/-- The loop of the fallback. -/
def manualLoop (keep : Fd) (upper fd : UInt32) (table : Fd → Option δ) :
    Fd → Option δ :=
  if _within : fd ≤ upper then
    let closed := if fd.toNat = keep.val then table else closeFd fd table
    if _last : fd = upper then closed
    else manualLoop keep upper (fd + 1) closed
  else table
termination_by upper.toNat - fd.toNat
decreasing_by
  rw [toNat_succ_of_ne _within _last]
  have below := toNat_lt_of_ne _within _last
  omega

def manualCloseRange (host : CloseHost) (first last : UInt32) (keep : Fd)
    (table : Fd → Option δ) : Fd → Option δ :=
  manualLoop keep (min last host.limit) first table

/-- The kernel refuses a range whose ends are crossed. -/
def closeRangeOrFallback (host : CloseHost) (first last : UInt32) (keep : Fd)
    (table : Fd → Option δ) : Fd → Option δ :=
  match host.closeRangeErrno with
  | none => fun fd =>
      if first.toNat ≤ fd.val ∧ fd.val ≤ last.toNat then none else table fd
  | some errno =>
      if errno = enosys then manualCloseRange host first last keep table
      else table

def closeInheritedFds (host : CloseHost) (keep : Fd) (table : Fd → Option δ) :
    Fd → Option δ :=
  if 2 < keep.val then
    closeRangeOrFallback host (.ofNat (keep.val + 1)) maxUint keep
      (closeRangeOrFallback host 3 (.ofNat (keep.val - 1)) keep table)
  else closeRangeOrFallback host 3 maxUint keep table

/-- What one turn of the loop does. -/
theorem turn_apply (keep : Fd) (fd : UInt32) (table : Fd → Option δ)
    (other : Fd) :
    (if fd.toNat = keep.val then table else closeFd fd table) other =
      if other.val = fd.toNat ∧ other ≠ keep then none else table other := by
  split_ifs with kept own own
  · exact absurd (Fin.ext (own.1.trans kept)) own.2
  · rfl
  · exact if_pos own.1
  · apply if_neg
    intro same
    exact own ⟨same, fun at_keep => kept (same ▸ at_keep ▸ rfl)⟩

/-- The loop closes what is between its ends, whether or not the last of them
is the greatest number. -/
theorem manualLoop_apply (keep : Fd) (upper fd : UInt32)
    (table : Fd → Option δ) (other : Fd) :
    manualLoop keep upper fd table other =
      if fd.toNat ≤ other.val ∧ other.val ≤ upper.toNat ∧ other ≠ keep then none
      else table other := by
  induction fd, table using manualLoop.induct keep upper with
  | case1 table within =>
      rw [manualLoop, dif_pos within, dif_pos rfl]
      apply (turn_apply keep upper table other).trans
      grind
  | case2 fd table within closed last ih =>
      rw [manualLoop, dif_pos within, dif_neg last]
      apply ih.trans
      have turned : closed other = _ := turn_apply keep fd table other
      rw [turned, toNat_succ_of_ne within last]
      have below := toNat_lt_of_ne within last
      grind
  | case3 fd table beyond =>
      rw [manualLoop, dif_neg beyond, if_neg]
      have above := mt UInt32.le_iff_toNat_le.mpr beyond
      omega

theorem toNat_min (a b : UInt32) : (min a b).toNat = min a.toNat b.toNat := by
  change (if a ≤ b then a else b).toNat = _
  split_ifs with below
  · exact (Nat.min_eq_left (UInt32.le_iff_toNat_le.mp below)).symm
  · have above := mt UInt32.le_iff_toNat_le.mpr below
    omega

/-- A call for a range that spares a descriptor. -/
theorem closeRangeOrFallback_apply (host : CloseHost) {first last : UInt32}
    {keep : Fd} (outside : ¬(first.toNat ≤ keep.val ∧ keep.val ≤ last.toNat))
    (table : Fd → Option δ) (other : Fd) :
    closeRangeOrFallback host first last keep table other =
      if host.Reaches other ∧ first.toNat ≤ other.val ∧
        other.val ≤ last.toNat then none
      else table other := by
  have spared : first.toNat ≤ other.val ∧ other.val ≤ last.toNat →
      other ≠ keep := by
    rintro within rfl
    exact outside within
  obtain ⟨_ | errno, nofile⟩ := host
  · simp [closeRangeOrFallback, CloseHost.Reaches]
  · by_cases absent : errno = enosys
    · subst absent
      simp only [closeRangeOrFallback, if_pos, manualCloseRange,
        manualLoop_apply, toNat_min]
      grind [CloseHost.Reaches]
    · simp [closeRangeOrFallback, CloseHost.Reaches, absent]

/-- Beside the standard ones, of all the descriptors that the host can reach
exactly the pipe of the exec error stays open. -/
theorem closeInheritedFds_apply (host : CloseHost) (keep : Fd)
    (table : Fd → Option δ) (fd : Fd) :
    closeInheritedFds host keep table fd =
      if host.Reaches fd ∧ 2 < fd.val ∧ fd ≠ keep then none else table fd := by
  have below := keep.isLt
  have last : maxUint.toNat = 2 ^ 32 - 1 := rfl
  have third : (3 : UInt32).toNat = 3 := rfl
  unfold closeInheritedFds
  by_cases above : 2 < keep.val
  · have after : (UInt32.ofNat (keep.val + 1)).toNat = keep.val + 1 :=
      Nat.mod_eq_of_lt (by omega)
    have before : (UInt32.ofNat (keep.val - 1)).toNat = keep.val - 1 :=
      Nat.mod_eq_of_lt (by omega)
    rw [if_pos above, closeRangeOrFallback_apply host (by omega),
      closeRangeOrFallback_apply host (by omega)]
    grind
  · rw [if_neg above, closeRangeOrFallback_apply host (by omega)]
    grind

end

end TrustLayer.AgentGuard.Sandbox
