import TrustLayer.Library.PathResolution
import TrustLayer.Library.Radix

/-!
# Paths without links

The sandbox resolves its paths itself, with a budget of links.  The list of
pending segments grows with every link that is followed, and the budget bounds
how often that happens.
-/

namespace TrustLayer.AgentGuard

open TrustLayer.Library
open TrustLayer.Library.Pathname

namespace Pathsafe

inductive Seg where
  | root
  | parent
  | normal (name : Str)
  deriving DecidableEq

/-- `Path::components` without the dots. -/
def toSegs (path : Str) : List Seg :=
  (if isAbsolute path then [.root] else []) ++
    (path.splitOn '/').filterMap fun part =>
      if part = [] ∨ part = ['.'] then none
      else if part = ['.', '.'] then some .parent
      else some (.normal part)

def maxSymlinkHops : Nat := 40

inductive IoError where
  | os (errno : FileSystem.Errno)
  | other (message : Str)
  deriving DecidableEq

def eloop (path : Str) : IoError :=
  .other ("ELOOP: more than 40 symlinks while resolving ".toList ++ path)

/-- The accumulator is an absolute path, by its names. -/
structure Walk where
  hops : Nat
  resolved : List Str
  pending : List Seg
  deriving DecidableEq

/-- The body of the loop, behind `pop`. -/
def turn (files : FileSystem) (path : Str) (hops : Nat) (resolved : List Str)
    (seg : Seg) (rest : List Seg) : Except IoError Walk :=
  match seg with
  | .root => .ok ⟨hops, [], rest⟩
  | .parent => .ok ⟨hops, resolved.dropLast, rest⟩
  | .normal name =>
      let candidate := resolved ++ [name]
      match files.lstat candidate with
      | .error errno => .error (.os errno)
      | .ok (.symlink target) =>
          if hops + 1 > maxSymlinkHops then .error (eloop path)
          else
            .ok ⟨hops + 1, if isAbsolute target then [] else resolved,
              toSegs target ++ rest⟩
      | .ok _ => .ok ⟨hops, candidate, rest⟩

/-- A turn uses a segment up, or a link of the budget. -/
theorem turn_decreases {files : FileSystem} {path : Str} {hops : Nat}
    {resolved : List Str} {seg : Seg} {rest : List Seg} {next : Walk}
    (turned : turn files path hops resolved seg rest = .ok next) :
    next.hops = hops ∧ next.pending = rest ∨
      next.hops = hops + 1 ∧ hops < maxSymlinkHops := by
  cases seg with
  | root =>
      cases turned
      exact .inl ⟨rfl, rfl⟩
  | parent =>
      cases turned
      exact .inl ⟨rfl, rfl⟩
  | normal name =>
      simp only [turn] at turned
      split at turned
      · cases turned
      · split at turned
        · cases turned
        · rename_i within
          cases turned
          exact .inr ⟨rfl, Nat.not_lt.mp within⟩
      · cases turned
        exact .inl ⟨rfl, rfl⟩

theorem turn_lex {files : FileSystem} {path : Str} {hops : Nat}
    {resolved : List Str} {seg : Seg} {rest : List Seg} {next : Walk}
    (turned : turn files path hops resolved seg rest = .ok next) :
    Prod.Lex (· < ·) (· < ·)
      (maxSymlinkHops - next.hops, next.pending.length)
      (maxSymlinkHops - hops, (seg :: rest).length) := by
  rcases turn_decreases turned with ⟨hops, shorter⟩ | ⟨hops, within⟩
  · rw [hops, shorter]
    exact Prod.Lex.right _ (Nat.lt_succ_self _)
  · apply Prod.Lex.left
    omega

/-- The loop over the pending segments. -/
def run (files : FileSystem) (path : Str) (walk : Walk) :
    Except IoError (List Str) :=
  match _pending : walk.pending with
  | [] => .ok walk.resolved
  | seg :: rest =>
      match _turned : turn files path walk.hops walk.resolved seg rest with
      | .error error => .error error
      | .ok next => run files path next
termination_by (maxSymlinkHops - walk.hops, walk.pending.length)
decreasing_by
  rw [_pending]
  exact turn_lex _turned

/-- `current_dir` is asked for a relative path alone. -/
def start (currentDir : Except IoError (List Str)) (path : Str) :
    Except IoError Walk := do
  let resolved ← if isAbsolute path then pure [] else currentDir
  return ⟨0, resolved, toSegs path⟩

def canonicalizeRecursive (files : FileSystem)
    (currentDir : Except IoError (List Str)) (path : Str) :
    Except IoError Str := do
  let walk ← start currentDir path
  return render (← run files path walk)

/-! ## Turns of the loop -/

section

variable {files : FileSystem} {path : Str} {walk next : Walk}
  {hops : Nat} {here names : List Str} {seg : Seg} {rest : List Seg}

theorem run_nil : run files path ⟨hops, here, []⟩ = .ok here := by
  rw [run]

theorem run_cons :
    run files path ⟨hops, here, seg :: rest⟩ =
      match turn files path hops here seg rest with
      | .error error => .error error
      | .ok next => run files path next := by
  rw [run]
  simp only
  split <;> simp_all

theorem run_of_turn (turned : turn files path hops here seg rest = .ok next) :
    run files path ⟨hops, here, seg :: rest⟩ = run files path next := by
  rw [run_cons, turned]

/-- The resolved path is settled, and so is the next one. -/
theorem run_normal {name : Str} (settled : files.Settled here) :
    run files path ⟨hops, here, .normal name :: rest⟩ =
      if files.node here = .directory then
        match files.node (here ++ [name]) with
        | .missing => .error (.os .noEntry)
        | .symlink target =>
            if hops + 1 > maxSymlinkHops then .error (eloop path)
            else run files path
              ⟨hops + 1, if isAbsolute target then [] else here,
                toSegs target ++ rest⟩
        | _ => run files path ⟨hops, here ++ [name], rest⟩
      else .error (.os .notDirectory) := by
  rw [run_cons, turn, settled.lstat_concat]
  by_cases directory : files.node here = .directory
  · simp only [directory, if_true]
    cases node : files.node (here ++ [name]) with
    | missing => rfl
    | directory => rfl
    | file => rfl
    | symlink target =>
        simp only
        split_ifs <;> rfl
  · simp only [directory, if_false]

/-- What a walk that ends has done with a name. -/
theorem run_normal_ok {name : Str} (settled : files.Settled here)
    (ok : run files path ⟨hops, here, .normal name :: rest⟩ = .ok names) :
    files.node here = .directory ∧
      ((files.node (here ++ [name]) = .directory ∨
          files.node (here ++ [name]) = .file) ∧
          run files path ⟨hops, here ++ [name], rest⟩ = .ok names ∨
        ∃ target, files.node (here ++ [name]) = .symlink target ∧
          hops < maxSymlinkHops ∧
          run files path ⟨hops + 1, if isAbsolute target then [] else here,
            toSegs target ++ rest⟩ = .ok names) := by
  rw [run_normal settled] at ok
  have directory : files.node here = .directory := by
    by_contra other
    rw [if_neg other] at ok
    cases ok
  rw [if_pos directory] at ok
  refine ⟨directory, ?_⟩
  cases node : files.node (here ++ [name]) with
  | missing => simp [node] at ok
  | directory =>
      simp only [node] at ok
      exact .inl ⟨.inl rfl, ok⟩
  | file =>
      simp only [node] at ok
      exact .inl ⟨.inr rfl, ok⟩
  | symlink target =>
      simp only [node] at ok
      by_cases spent : hops + 1 > maxSymlinkHops
      · rw [if_pos spent] at ok
        cases ok
      · rw [if_neg spent] at ok
        exact .inr ⟨target, rfl, Nat.not_lt.mp spent, ok⟩

/-! ## The same walk with dots -/

/-- The segments that the loop is given; a dot is dropped. -/
def Seg.ofSegment : Segment → Option Seg
  | .current => none
  | .parent => some .parent
  | .name name => some (.normal name)

theorem toSegs_eq (path : Str) :
    toSegs path = (if isAbsolute path then [.root] else []) ++
      (Segment.all path).filterMap Seg.ofSegment := by
  rw [toSegs, Segment.all, List.filterMap_append, Segment.inside,
    List.filterMap_filterMap]
  have dot : (if path.getLast? = some '/' then [Segment.current]
      else []).filterMap Seg.ofSegment = [] := by
    split_ifs <;> rfl
  rw [dot, List.append_nil]
  congr 1
  apply List.filterMap_congr
  intro part _
  unfold Segment.ofPart
  split_ifs <;> simp_all [Seg.ofSegment]

/-- A target that starts at the root is entered there in any case. -/
theorem run_toSegs (target : Str) :
    run files path ⟨hops, if isAbsolute target then [] else here,
        toSegs target ++ rest⟩ =
      run files path ⟨hops, if isAbsolute target then [] else here,
        (Segment.all target).filterMap Seg.ofSegment ++ rest⟩ := by
  rw [toSegs_eq]
  split_ifs
  · rw [List.append_assoc, List.singleton_append, run_cons]
    rfl
  · rfl

/-- A proof about every place and every use of the budget: a turn leaves less
of the path, or less of the budget. -/
theorem budgetInduction {motive : Nat → Place → Prop}
    (turns : ∀ hops place,
      (∀ next : Place, next.pending.length < place.pending.length →
        motive hops next) →
      (∀ next, hops < maxSymlinkHops → motive (hops + 1) next) →
        motive hops place)
    (hops : Nat) (place : Place) : motive hops place := by
  have along : ∀ hops,
      (∀ next, hops < maxSymlinkHops → motive (hops + 1) next) →
        ∀ place, motive hops place := by
    intro hops follow place
    induction length : place.pending.length using Nat.strong_induction_on
      generalizing place with
    | _ length shorter =>
        apply turns hops place _ follow
        intro next less
        exact shorter _ (length ▸ less) next rfl
  induction left : maxSymlinkHops - hops generalizing hops place with
  | zero =>
      apply along
      intro next within
      omega
  | succ left induction =>
      apply along
      intro next within
      apply induction
      omega

/-- The walk that stands where the place does. -/
def Walk.of (hops : Nat) (place : Place) : Walk :=
  ⟨hops, place.here, place.pending.filterMap Seg.ofSegment⟩

theorem run_behind (hops : Nat) (target : Str) (pending : List Segment) :
    run files path ⟨hops, if isAbsolute target then [] else here,
        toSegs target ++ pending.filterMap Seg.ofSegment⟩ =
      run files path (.of hops (.behind here target pending)) := by
  rw [run_toSegs, Walk.of, Place.behind, List.filterMap_append]

/-- The resolution ends at the names, if it does not stop at a file on the
way. -/
def EndsAt (files : FileSystem) (names : List Str) (place : Place) : Prop :=
  files.Settled names ∧
    (files.Reaches place ⟨names, []⟩ ∨ files.LeavesFile place)

theorem EndsAt.of_steps {place next : Place} (ends : EndsAt files names next)
    (steps : files.Steps place next) : EndsAt files names place := by
  obtain ⟨settled, reaches | leaves⟩ := ends
  · exact ⟨settled, .inl (reaches.head steps)⟩
  · exact ⟨settled, .inr (leaves.of_steps steps)⟩

/-- The loop takes a dot at a file too. -/
theorem EndsAt.of_dot {there : List Str} {segment : Segment}
    {pending : List Segment} (ends : EndsAt files names ⟨there, pending⟩)
    (settled : files.Settled here)
    (dot : segment = .current ∨ segment = .parent)
    (moves : files.node here = .directory →
      files.Steps ⟨here, segment :: pending⟩ ⟨there, pending⟩) :
    EndsAt files names ⟨here, segment :: pending⟩ := by
  rcases settled.plain with directory | file
  · exact ends.of_steps (moves directory)
  · exact ⟨ends.1, .inr ⟨here, segment, pending, .refl, file, dot⟩⟩

theorem run_ok (hops : Nat) (place : Place)
    (settled : files.Settled place.here)
    (ok : run files path (.of hops place) = .ok names) :
    EndsAt files names place := by
  induction hops, place using budgetInduction with
  | turns hops place shorter follow =>
      obtain ⟨here, pending⟩ := place
      cases pending with
      | nil =>
          rw [Walk.of, List.filterMap_nil, run_nil] at ok
          cases ok
          exact ⟨settled, .inl .refl⟩
      | cons segment rest =>
          cases segment with
          | current =>
              have later := shorter ⟨here, rest⟩ (Nat.lt_succ_self _) settled ok
              exact later.of_dot settled (.inl rfl) .current
          | parent =>
              have moved := run_cons.symm.trans ok
              have later := shorter ⟨here.dropLast, rest⟩ (Nat.lt_succ_self _)
                settled.dropLast moved
              exact later.of_dot settled (.inr rfl) .parent
          | name name =>
              obtain ⟨directory, ⟨plain, moved⟩ |
                ⟨target, link, within, moved⟩⟩ := run_normal_ok settled ok
              · have later := shorter ⟨here ++ [name], rest⟩
                  (Nat.lt_succ_self _) (settled.concat directory plain) moved
                exact later.of_steps (.enter directory plain)
              · rw [run_behind] at moved
                have later := follow _ within settled.behind moved
                exact later.of_steps (.follow directory link)

/-- A resolution without end spends the budget. -/
theorem run_of_endless (hops : Nat) (place : Place)
    (settled : files.Settled place.here) (endless : files.Endless place) :
    run files path (.of hops place) = .error (eloop path) := by
  induction hops, place using budgetInduction with
  | turns hops place shorter follow =>
      obtain ⟨next, steps⟩ := endless place .refl
      have later := endless.of_steps steps
      cases steps with
      | @current here rest directory =>
          exact shorter ⟨here, rest⟩ (Nat.lt_succ_self _) settled later
      | @parent here rest directory =>
          refine run_cons.trans ?_
          exact shorter ⟨here.dropLast, rest⟩ (Nat.lt_succ_self _)
            settled.dropLast later
      | @enter here name rest directory plain =>
          have inside := shorter ⟨here ++ [name], rest⟩ (Nat.lt_succ_self _)
            (settled.concat directory plain) later
          refine (run_normal settled).trans ?_
          rw [if_pos directory]
          rcases plain with plain | plain
          · simp only [plain]
            exact inside
          · simp only [plain]
            exact inside
      | @follow here name target rest directory link =>
          refine (run_normal settled).trans ?_
          rw [if_pos directory]
          simp only [link]
          by_cases spent : hops + 1 > maxSymlinkHops
          · rw [if_pos spent]
          · rw [if_neg spent, run_behind]
            exact follow _ (Nat.not_lt.mp spent) settled.behind later

/-! ## Turns of the loop as a relation -/

def Turns (files : FileSystem) (path : Str) (before after : Walk) : Prop :=
  ∃ seg rest, before.pending = seg :: rest ∧
    turn files path before.hops before.resolved seg rest = .ok after

/-- There is no sequence of turns without end. -/
theorem turns_wellFounded (files : FileSystem) (path : Str) :
    WellFounded fun after before => Turns files path before after := by
  let left (walk : Walk) : Nat × Nat :=
    (maxSymlinkHops - walk.hops, walk.pending.length)
  have lexicographic := (Prod.lex Nat.lt_wfRel Nat.lt_wfRel).wf
  apply Subrelation.wf _ (InvImage.wf left lexicographic)
  rintro after before ⟨seg, rest, pending, turned⟩
  simp only [left]
  rw [InvImage, pending]
  exact turn_lex turned

theorem turns_hops {later : Walk} (within : walk.hops ≤ maxSymlinkHops)
    (turns : Relation.ReflTransGen (Turns files path) walk later) :
    later.hops ≤ maxSymlinkHops := by
  induction turns with
  | refl => exact within
  | tail _ last induction =>
      obtain ⟨seg, rest, -, turned⟩ := last
      rcases turn_decreases turned with ⟨hops, -⟩ | ⟨hops, spent⟩
      · rw [hops]
        exact induction
      · rw [hops]
        exact spent

/-- What every turn keeps, the end of the walk has. -/
theorem run_keeps {kept : Walk → Prop}
    (keeps : ∀ before after, kept before → Turns files path before after →
      kept after)
    (start : kept walk) (ok : run files path walk = .ok names) :
    ∃ hops, kept ⟨hops, names, []⟩ := by
  induction walk using (turns_wellFounded files path).induction with
  | _ walk induction =>
      obtain ⟨hops, here, pending⟩ := walk
      cases pending with
      | nil =>
          rw [run_nil] at ok
          cases ok
          exact ⟨hops, start⟩
      | cons seg rest =>
          rw [run_cons] at ok
          cases turned : turn files path hops here seg rest with
          | error error => simp [turned] at ok
          | ok next =>
              rw [turned] at ok
              have moves : Turns files path ⟨hops, here, seg :: rest⟩ next :=
                ⟨seg, rest, rfl, turned⟩
              exact induction next moves (keeps _ _ start moves) ok

/-- The names met so far, and those that are pending, are proper ones. -/
structure Proper (walk : Walk) : Prop where
  resolved : ∀ name ∈ walk.resolved, IsName name
  pending : ∀ name, .normal name ∈ walk.pending → IsName name

theorem isName_of_mem_filterMap {name : Str}
    (member : Seg.normal name ∈ (Segment.all path).filterMap Seg.ofSegment) :
    IsName name := by
  obtain ⟨segment, found, same⟩ := List.mem_filterMap.mp member
  cases segment <;> cases same
  exact Segment.isName_of_mem found

theorem isName_of_mem_toSegs {name : Str}
    (member : Seg.normal name ∈ toSegs path) : IsName name := by
  rw [toSegs_eq] at member
  rcases List.mem_append.mp member with root | inside
  · split_ifs at root <;> simp at root
  · exact isName_of_mem_filterMap inside

theorem proper_start (path : Str) : Proper (.of 0 (.start path)) where
  resolved := nofun
  pending _ := isName_of_mem_filterMap

theorem Proper.turn {before after : Walk} (proper : Proper before)
    (turns : Turns files path before after) : Proper after := by
  obtain ⟨hops, here, pending⟩ := before
  obtain ⟨seg, rest, rfl, turned⟩ := turns
  have later : ∀ name, .normal name ∈ rest → IsName name :=
    fun name member => proper.pending name (List.mem_cons_of_mem _ member)
  cases seg with
  | root =>
      cases turned
      exact ⟨nofun, later⟩
  | parent =>
      cases turned
      refine ⟨fun name member => ?_, later⟩
      exact proper.resolved name (List.dropLast_subset _ member)
  | normal name =>
      simp only [Pathsafe.turn] at turned
      split at turned
      · cases turned
      · rename_i target _
        split at turned
        · cases turned
        · cases turned
          refine ⟨fun other member => ?_, fun other member => ?_⟩
          · apply proper.resolved other
            simp only at member
            split_ifs at member
            · cases member
            · exact member
          · rcases List.mem_append.mp member with inTarget | inRest
            · exact isName_of_mem_toSegs inTarget
            · exact later other inRest
      · cases turned
        refine ⟨fun other member => ?_, later⟩
        rcases List.mem_append.mp member with inHere | last
        · exact proper.resolved other inHere
        · rw [List.mem_singleton.mp last]
          exact proper.pending name List.mem_cons_self

/-! ## The canonical path -/

theorem start_of_absolute {currentDir : Except IoError (List Str)}
    (absolute : isAbsolute path = true) :
    canonicalizeRecursive files currentDir path =
      (run files path (.of 0 (.start path))).map render := by
  have entered := @run_toSegs files path 0 [] [] path
  simp only [absolute, if_true, List.append_nil] at entered
  have started : start currentDir path = .ok ⟨0, [], toSegs path⟩ := by
    rw [start, if_pos absolute]
    rfl
  rw [Walk.of, Place.start, ← entered, canonicalizeRecursive, started]
  change (run files path ⟨0, [], toSegs path⟩ >>= fun names =>
    pure (render names)) = _
  cases run files path ⟨0, [], toSegs path⟩ <;> rfl

theorem denotes_render (settled : files.Settled names)
    (proper : ∀ name ∈ names, IsName name) :
    files.Denotes (render names) names := by
  rw [FileSystem.Denotes, Place.start, Segment.all_render proper]
  split_ifs with none
  · subst none
    exact .single (.current files.root)
  · have found := settled.reaches []
    rw [List.append_nil] at found
    exact found

/-- For every absolute path on every file system, the loop ends, with no more
links followed than the budget has.  Its result is absolute, has no link on it,
and is the path of what the operating system finds exactly when the resolution
meets no `.`, `..` or slash at the end behind a file.  A cycle of links is an
error. -/
theorem canonicalizeRecursive_iff (files : FileSystem)
    (currentDir : Except IoError (List Str)) (path : Str)
    (absolute : isAbsolute path = true) :
    (WellFounded (fun after before => Turns files path before after) ∧
      ∀ later, Relation.ReflTransGen (Turns files path)
          ⟨0, [], toSegs path⟩ later → later.hops ≤ maxSymlinkHops) ∧
    (∀ result, canonicalizeRecursive files currentDir path = .ok result →
      isAbsolute result = true ∧
      (∃ names, result = render names ∧
        ∀ ancestor, ancestor <+: names → ∀ target,
          files.node ancestor ≠ .symlink target) ∧
      ((∀ found, files.Denotes result found ↔ files.Denotes path found) ↔
        ¬ files.LeavesFile (.start path))) ∧
    (∀ here name rest,
      files.Reaches (.start path) ⟨here, .name name :: rest⟩ →
        files.Cycle here name →
          canonicalizeRecursive files currentDir path =
            .error (eloop path)) := by
  refine ⟨⟨turns_wellFounded files path, ?_⟩, ?_, ?_⟩
  · intro later turns
    exact turns_hops (Nat.zero_le _) turns
  · intro result ok
    rw [start_of_absolute absolute] at ok
    cases walked : run files path (.of 0 (.start path)) with
    | error error => simp [walked, Except.map] at ok
    | ok names =>
        rw [walked] at ok
        cases ok
        obtain ⟨settled, ends⟩ := run_ok 0 _ FileSystem.settled_nil walked
        obtain ⟨hops, proper⟩ := run_keeps
          (fun _ _ proper turns => Proper.turn proper turns)
          (proper_start path) walked
        have itself := denotes_render settled proper.resolved
        refine ⟨isAbsolute_render names, ⟨names, rfl, ?_⟩, ?_⟩
        · intro ancestor inside target
          exact settled.not_symlink inside
        · constructor
          · intro same leaves
            exact leaves.not_reaches ((same names).mp itself)
          · intro stays found
            have reaches := ends.resolve_right stays
            constructor
            · intro denotes
              rw [FileSystem.denotes_unique itself denotes]
              exact reaches
            · intro denotes
              rw [FileSystem.denotes_unique reaches denotes]
              exact itself
  · intro here name rest reaches cycle
    have endless := cycle.endless reaches
    rw [start_of_absolute absolute, run_of_endless 0 _ FileSystem.settled_nil
      endless]
    rfl

end

/-! ### A file in the middle of a path -/

/-- A home with a file in it and a link to the home. -/
def homeFiles : FileSystem where
  node names :=
    if names = [] ∨ names = ["home".toList] then .directory
    else if names = ["home".toList, "notes".toList] then .file
    else if names = ["home".toList, "me".toList] then .symlink ".".toList
    else .missing
  root := rfl

theorem canonicalizeRecursive_home :
    canonicalizeRecursive homeFiles (.ok []) "/home/me/notes".toList =
      .ok "/home/notes".toList := by
  have walked : run homeFiles "/home/me/notes".toList
      (.of 0 (.start "/home/me/notes".toList)) =
      .ok ["home".toList, "notes".toList] :=
    calc
      _ = _ := run_of_turn rfl
      _ = _ := run_of_turn rfl
      _ = _ := run_of_turn rfl
      _ = _ := run_nil
  rw [start_of_absolute rfl, walked]
  rfl

theorem canonicalizeRecursive_iff_home :
    (∀ found, homeFiles.Denotes "/home/notes".toList found ↔
        homeFiles.Denotes "/home/me/notes".toList found) ↔
      ¬ homeFiles.LeavesFile (.start "/home/me/notes".toList) := by
  have correct := canonicalizeRecursive_iff homeFiles (.ok [])
    "/home/me/notes".toList rfl
  exact (correct.2.1 _ canonicalizeRecursive_home).2.2

theorem parent_of_file_not_denoted :
    canonicalizeRecursive homeFiles (.ok []) "/home/notes/..".toList =
        .ok "/home".toList ∧
      ∀ found, ¬ homeFiles.Denotes "/home/notes/..".toList found := by
  constructor
  · have walked : run homeFiles "/home/notes/..".toList
        (.of 0 (.start "/home/notes/..".toList)) = .ok ["home".toList] :=
      calc
        _ = _ := run_of_turn rfl
        _ = _ := run_of_turn rfl
        _ = _ := run_of_turn rfl
        _ = _ := run_nil
    rw [start_of_absolute rfl, walked]
    rfl
  · intro found
    apply FileSystem.LeavesFile.not_reaches
    refine ⟨["home".toList, "notes".toList], .parent, [], ?_, rfl, .inr rfl⟩
    have enters : homeFiles.Steps (.start "/home/notes/..".toList)
        ⟨["home".toList], [.name "notes".toList, .parent]⟩ :=
      .enter homeFiles.root (.inl rfl)
    exact (Relation.ReflTransGen.single enters).tail (.enter rfl (.inr rfl))

end Pathsafe

end TrustLayer.AgentGuard
