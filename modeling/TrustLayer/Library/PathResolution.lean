import TrustLayer.Library.Text
import Mathlib.Data.List.Infix
import Mathlib.Logic.Relation

/-!
# Resolution of path names

A path name is resolved from the root, component by component, on a file system
that maps absolute paths to nodes.  A link is followed where it stands, `.` and
`..` need a directory, and a slash at the end is one more `.`.
-/

namespace TrustLayer.Library.Pathname

inductive Segment where
  | current
  | parent
  | name (name : Str)
  deriving DecidableEq

namespace Segment

/-- The part between two slashes; an empty one asks for nothing. -/
def ofPart (part : Str) : Option Segment :=
  if part = [] then none
  else if part = ['.'] then some .current
  else if part = ['.', '.'] then some .parent
  else some (.name part)

/-- The segments without the dot of a slash at the end. -/
def inside (path : Str) : List Segment :=
  (path.splitOn '/').filterMap ofPart

def all (path : Str) : List Segment :=
  inside path ++ if path.getLast? = some '/' then [.current] else []

end Segment

def isAbsolute (path : Str) : Bool :=
  path.head? = some '/'

/-- What can stand between two slashes and names something. -/
def IsName (part : Str) : Prop :=
  Segment.ofPart part = some (.name part) ∧ '/' ∉ part

/-- The absolute path with the names. -/
def render (names : List Str) : Str :=
  if names = [] then ['/'] else names.flatMap fun name => '/' :: name

/-! ## Names -/

theorem isAbsolute_render (names : List Str) : isAbsolute (render names) = true := by
  cases names <;> rfl

theorem splitOn_render {names : List Str} (noSlash : ∀ name ∈ names, '/' ∉ name)
    (nonempty : names ≠ []) : (render names).splitOn '/' = [] :: names := by
  have joined := intercalate_cons '/' [] names
  rw [List.nil_append] at joined
  rw [render, if_neg nonempty, ← joined]
  apply List.splitOn_intercalate
  · intro part member
    rcases List.mem_cons.mp member with rfl | member
    · exact List.not_mem_nil
    · exact noSlash part member
  · exact List.cons_ne_nil _ _

theorem getLast?_render {names : List Str}
    (proper : ∀ name ∈ names, IsName name) (nonempty : names ≠ []) :
    (render names).getLast? ≠ some '/' := by
  rcases List.eq_nil_or_concat' names with rfl | ⟨front, last, rfl⟩
  · exact absurd rfl nonempty
  · obtain ⟨named, noSlash⟩ := proper last (by simp)
    rcases List.eq_nil_or_concat' last with rfl | ⟨start, char, rfl⟩
    · cases named
    · rw [render, if_neg nonempty, List.flatMap_append, List.flatMap_singleton,
        ← List.cons_append, ← List.append_assoc, List.getLast?_concat]
      intro same
      apply noSlash
      rw [Option.some.inj same]
      exact List.mem_append_right _ List.mem_cons_self

theorem filterMap_ofPart {names : List Str}
    (proper : ∀ name ∈ names, IsName name) :
    names.filterMap Segment.ofPart = names.map .name := by
  induction names with
  | nil => rfl
  | cons name names induction =>
      have here := (proper name List.mem_cons_self).1
      have behind := induction fun other member =>
        proper other (List.mem_cons_of_mem _ member)
      rw [List.filterMap_cons, here, behind, List.map_cons]

/-- What is rendered is read back. -/
theorem Segment.all_render {names : List Str}
    (proper : ∀ name ∈ names, IsName name) :
    Segment.all (render names) =
      if names = [] then [.current] else names.map .name := by
  split_ifs with none
  · subst none
    rfl
  · rw [Segment.all, if_neg (getLast?_render proper none), Segment.inside,
      splitOn_render (fun name member => (proper name member).2) none,
      List.append_nil, List.filterMap_cons]
    exact filterMap_ofPart proper

theorem notMem_of_mem_splitOn {char : Char} {text part : Str}
    (member : part ∈ text.splitOn char) : char ∉ part := by
  induction text generalizing part with
  | nil =>
      rw [List.splitOn_nil, List.mem_singleton] at member
      subst member
      exact List.not_mem_nil
  | cons first text induction =>
      rw [List.splitOn_cons_eq_if_modifyHead] at member
      by_cases same : first = char
      · rw [if_pos (by simpa using same)] at member
        rcases List.mem_cons.mp member with rfl | later
        · exact List.not_mem_nil
        · exact induction later
      · rw [if_neg (by simpa using same)] at member
        cases parts : text.splitOn char with
        | nil => exact absurd parts (List.splitOn_ne_nil char text)
        | cons front behind =>
            rw [parts] at member induction
            rcases List.mem_cons.mp member with rfl | later
            · have frontFree := induction List.mem_cons_self
              intro inside
              rcases List.mem_cons.mp inside with isFirst | inFront
              · exact same isFirst.symm
              · exact frontFree inFront
            · exact induction (List.mem_cons_of_mem _ later)

theorem Segment.ofPart_eq_name {part name : Str}
    (named : Segment.ofPart part = some (.name name)) : name = part := by
  unfold Segment.ofPart at named
  split_ifs at named <;> cases named
  rfl

/-- The names in a path are proper ones. -/
theorem Segment.isName_of_mem {path name : Str}
    (member : Segment.name name ∈ Segment.all path) : IsName name := by
  rcases List.mem_append.mp member with inside | dot
  · obtain ⟨part, split, named⟩ := List.mem_filterMap.mp inside
    obtain rfl := Segment.ofPart_eq_name named
    exact ⟨named, notMem_of_mem_splitOn split⟩
  · split_ifs at dot <;> simp at dot

/-! ## File systems -/

inductive Node where
  | missing
  | directory
  | file
  | symlink (target : Str)
  deriving DecidableEq

/-- Any map from absolute paths to nodes whose root is a directory. -/
structure FileSystem where
  node : List Str → Node
  root : node [] = .directory

/-- Where a resolution stands, and what is left of the path. -/
structure Place where
  here : List Str
  pending : List Segment
  deriving DecidableEq

namespace Place

def start (path : Str) : Place :=
  { here := [], pending := Segment.all path }

/-- A link is replaced with its target. -/
def behind (here : List Str) (target : Str) (rest : List Segment) : Place :=
  { here := if isAbsolute target then [] else here
    pending := Segment.all target ++ rest }

end Place

namespace FileSystem

variable {files : FileSystem}

inductive Steps (files : FileSystem) : Place → Place → Prop
  | current {here : List Str} {rest : List Segment}
      (directory : files.node here = .directory) :
      Steps files ⟨here, .current :: rest⟩ ⟨here, rest⟩
  | parent {here : List Str} {rest : List Segment}
      (directory : files.node here = .directory) :
      Steps files ⟨here, .parent :: rest⟩ ⟨here.dropLast, rest⟩
  | enter {here : List Str} {name : Str} {rest : List Segment}
      (directory : files.node here = .directory)
      (plain : files.node (here ++ [name]) = .directory ∨
        files.node (here ++ [name]) = .file) :
      Steps files ⟨here, .name name :: rest⟩ ⟨here ++ [name], rest⟩
  | follow {here : List Str} {name target : Str} {rest : List Segment}
      (directory : files.node here = .directory)
      (link : files.node (here ++ [name]) = .symlink target) :
      Steps files ⟨here, .name name :: rest⟩ (.behind here target rest)

def Reaches (files : FileSystem) : Place → Place → Prop :=
  Relation.ReflTransGen files.Steps

/-- The absolute path name is that of the node with the names. -/
def Denotes (files : FileSystem) (path : Str) (names : List Str) : Prop :=
  files.Reaches (.start path) ⟨names, []⟩

/-- The resolution never ends. -/
def Endless (files : FileSystem) (place : Place) : Prop :=
  ∀ later, files.Reaches place later → ∃ next, files.Steps later next

/-- The link is asked for again in its own resolution. -/
def Cycle (files : FileSystem) (here : List Str) (name : Str) : Prop :=
  ∃ more, Relation.TransGen files.Steps ⟨here, [.name name]⟩
    ⟨here, .name name :: more⟩

/-- The resolution comes to a `.`, a `..` or a slash at the end behind a
file. -/
def LeavesFile (files : FileSystem) (place : Place) : Prop :=
  ∃ here segment rest, files.Reaches place ⟨here, segment :: rest⟩ ∧
    files.node here = .file ∧ (segment = .current ∨ segment = .parent)

/-! ## Steps -/

variable {place next other later : Place}

theorem steps_rightUnique : Relator.RightUnique files.Steps := by
  intro place next other first second
  cases first with
  | current directory => cases second with | current _ => rfl
  | parent directory => cases second with | parent _ => rfl
  | enter directory plain =>
      cases second with
      | enter _ _ => rfl
      | follow _ link => simp [link] at plain
  | follow directory link =>
      cases second with
      | enter _ plain => simp [link] at plain
      | follow _ same =>
          cases link.symm.trans same
          rfl

/-- A resolution that has stopped is where every other one from the same place
gets. -/
theorem Reaches.of_stopped (reaches : files.Reaches place next)
    (stopped : ∀ later, ¬ files.Steps next later)
    (others : files.Reaches place other) : files.Reaches other next := by
  rcases reaches.total_of_right_unique steps_rightUnique others with
    behind | before
  · rcases behind.cases_head with rfl | ⟨later, steps, -⟩
    · exact .refl
    · exact absurd steps (stopped later)
  · exact before

theorem not_steps_done {names : List Str} :
    ¬ files.Steps ⟨names, []⟩ later := nofun

theorem denotes_unique {path : Str} {names found : List Str}
    (denotes : files.Denotes path names) (finds : files.Denotes path found) :
    found = names := by
  have behind := Reaches.of_stopped denotes (fun _ => not_steps_done) finds
  rcases behind.cases_head with same | ⟨later, steps, -⟩
  · exact congrArg Place.here same
  · exact absurd steps not_steps_done

/-- At a file there is no step over a dot. -/
theorem LeavesFile.not_reaches {names : List Str}
    (leaves : files.LeavesFile place) :
    ¬ files.Reaches place ⟨names, []⟩ := by
  intro reaches
  obtain ⟨here, segment, rest, behind, file, dot⟩ := leaves
  have stopped : ∀ later, ¬ files.Steps ⟨here, segment :: rest⟩ later := by
    intro later steps
    cases steps with
    | current directory => cases file.symm.trans directory
    | parent directory => cases file.symm.trans directory
    | enter directory plain => simp at dot
    | follow directory link => simp at dot
  have back := behind.of_stopped stopped reaches
  rcases back.cases_head with same | ⟨later, steps, -⟩
  · cases same
  · exact not_steps_done steps

theorem LeavesFile.of_steps (steps : files.Steps place next)
    (leaves : files.LeavesFile next) : files.LeavesFile place := by
  obtain ⟨here, segment, rest, behind, file, dot⟩ := leaves
  exact ⟨here, segment, rest, behind.head steps, file, dot⟩

theorem Endless.of_steps (endless : files.Endless place)
    (steps : files.Steps place next) : files.Endless next :=
  fun _ behind => endless _ (behind.head steps)

/-! ## Cycles -/

theorem Steps.append (steps : files.Steps place next) (rest : List Segment) :
    files.Steps ⟨place.here, place.pending ++ rest⟩
      ⟨next.here, next.pending ++ rest⟩ := by
  cases steps with
  | current directory => exact .current directory
  | parent directory => exact .parent directory
  | enter directory plain => exact .enter directory plain
  | @follow here name target _ directory link =>
      simp only [Place.behind, List.append_assoc]
      exact .follow directory link

/-- The cycle comes back to the link however much is left behind it. -/
theorem Cycle.turn {here : List Str} {name : Str}
    (cycle : files.Cycle here name) (rest : List Segment) :
    ∃ more, Relation.TransGen files.Steps ⟨here, .name name :: rest⟩
      ⟨here, .name name :: more⟩ := by
  obtain ⟨more, turns⟩ := cycle
  let longer (place : Place) : Place := ⟨place.here, place.pending ++ rest⟩
  refine ⟨more ++ rest, ?_⟩
  exact Relation.TransGen.lift longer
    (fun _ _ steps => Steps.append steps rest) _ _ turns

theorem Cycle.endless {here : List Str} {name : Str} {rest : List Segment}
    (cycle : files.Cycle here name)
    (reaches : files.Reaches place ⟨here, .name name :: rest⟩) :
    files.Endless place := by
  -- every place on the way has the link, with something behind it, before it
  have returns : ∀ later, files.Reaches place later →
      ∃ more, files.Reaches later ⟨here, .name name :: more⟩ := by
    intro later behind
    induction behind with
    | refl => exact ⟨rest, reaches⟩
    | tail _ steps induction =>
        obtain ⟨more, ahead⟩ := induction
        rcases ahead.cases_head with rfl | ⟨second, first, ahead⟩
        · obtain ⟨again, turns⟩ := cycle.turn more
          obtain ⟨second, first, ahead⟩ :=
            Relation.TransGen.head'_iff.mp turns
          cases steps_rightUnique steps first
          exact ⟨again, ahead⟩
        · cases steps_rightUnique steps first
          exact ⟨more, ahead⟩
  intro later behind
  obtain ⟨more, ahead⟩ := returns later behind
  rcases ahead.cases_head with rfl | ⟨second, first, -⟩
  · obtain ⟨again, turns⟩ := cycle.turn more
    obtain ⟨second, first, -⟩ := Relation.TransGen.head'_iff.mp turns
    exact ⟨second, first⟩
  · exact ⟨second, first⟩

/-! ## Nodes without links before them -/

inductive Errno where
  | noEntry
  | notDirectory
  deriving DecidableEq

/-- The node with the names, no ancestor of which is a link. -/
def lstat (files : FileSystem) (names : List Str) : Except Errno Node :=
  if ∀ ancestor ∈ names.dropLast.inits, files.node ancestor = .directory then
    match files.node names with
    | .missing => .error .noEntry
    | node => .ok node
  else .error .notDirectory

/-- A node without a link before it or in its place. -/
structure Settled (files : FileSystem) (here : List Str) : Prop where
  ancestors : ∀ ancestor, ancestor <+: here → ancestor ≠ here →
    files.node ancestor = .directory
  plain : files.node here = .directory ∨ files.node here = .file

variable {here : List Str} {name : Str}

theorem settled_nil : files.Settled [] where
  ancestors _ inside different :=
    absurd (List.prefix_nil.mp inside) different
  plain := .inl files.root

theorem Settled.behind {target : Str} {rest : List Segment}
    (settled : files.Settled here) :
    files.Settled (Place.behind here target rest).here := by
  rw [Place.behind]
  split_ifs
  · exact settled_nil
  · exact settled

theorem Settled.not_symlink {ancestor : List Str} {target : Str}
    (settled : files.Settled here) (inside : ancestor <+: here) :
    files.node ancestor ≠ .symlink target := by
  intro link
  by_cases same : ancestor = here
  · subst same
    have plain := settled.plain
    simp [link] at plain
  · cases link.symm.trans (settled.ancestors ancestor inside same)

theorem Settled.dropLast (settled : files.Settled here) :
    files.Settled here.dropLast := by
  rcases List.eq_nil_or_concat' here with rfl | ⟨front, last, rfl⟩
  · exact settled
  · rw [List.dropLast_concat]
    have inside := List.prefix_append front [last]
    have shorter : ∀ ancestor, ancestor <+: front →
        files.node ancestor = .directory := by
      intro ancestor before
      apply settled.ancestors ancestor (before.trans inside)
      intro same
      have lengths := before.length_le
      rw [same, List.length_append, List.length_singleton] at lengths
      omega
    exact ⟨fun ancestor before _ => shorter ancestor before,
      .inl (shorter front List.prefix_rfl)⟩

theorem Settled.concat (settled : files.Settled here)
    (directory : files.node here = .directory)
    (plain : files.node (here ++ [name]) = .directory ∨
      files.node (here ++ [name]) = .file) :
    files.Settled (here ++ [name]) := by
  refine ⟨fun ancestor inside different => ?_, plain⟩
  rcases List.prefix_concat_iff.mp inside with same | inside
  · exact absurd same different
  · by_cases same : ancestor = here
    · rw [same, directory]
    · exact settled.ancestors ancestor inside same

/-- From a settled place, the node of a name is looked up in a directory. -/
theorem Settled.lstat_concat (settled : files.Settled here) :
    files.lstat (here ++ [name]) =
      if files.node here = .directory then
        match files.node (here ++ [name]) with
        | .missing => .error .noEntry
        | node => .ok node
      else .error .notDirectory := by
  have same : (∀ ancestor ∈ (here ++ [name]).dropLast.inits,
      files.node ancestor = .directory) ↔ files.node here = .directory := by
    rw [List.dropLast_concat]
    constructor
    · intro each
      exact each here ((List.mem_inits _ _).mpr List.prefix_rfl)
    · intro directory ancestor inside
      by_cases same : ancestor = here
      · rw [same, directory]
      · exact settled.ancestors ancestor ((List.mem_inits _ _).mp inside) same
  rw [lstat]
  simp only [same]

/-- A settled node is found by its names. -/
theorem Settled.reaches (settled : files.Settled here) (rest : List Segment) :
    files.Reaches ⟨[], here.map .name ++ rest⟩ ⟨here, rest⟩ := by
  induction here using List.reverseRecOn generalizing rest with
  | nil => exact .refl
  | append_singleton front last induction =>
      have before := settled.dropLast
      rw [List.dropLast_concat] at before
      have directory : files.node front = .directory := by
        apply settled.ancestors front (List.prefix_append _ _)
        simp
      have found := induction before (.name last :: rest)
      rw [List.map_append, List.append_assoc]
      exact found.tail (.enter directory settled.plain)

end FileSystem

end TrustLayer.Library.Pathname
