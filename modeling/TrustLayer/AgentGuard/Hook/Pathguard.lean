import TrustLayer.AgentGuard.Verdict
import TrustLayer.Library.LexicalPath

/-!
# The path guard

A path is folded to lower case and to one separator, and then matched as a
text: by its front, by a directory anywhere in it, and by its last name.  This
is the guard of a build for Unix.
-/

namespace TrustLayer.AgentGuard

open TrustLayer.Library
open TrustLayer.Library.Pathname

namespace Pathguard

/-! ## Normalization -/

/-- `replace('\\', "/")`. -/
def foldSlashes (path : Str) : Str :=
  path.map fun char => if char = '\\' then '/' else char

/-- A variable that is empty counts as absent. -/
def homeDir (env : Str → Option Str) : Option Str :=
  ((env "HOME".toList).filter (· ≠ [])).or
    ((env "USERPROFILE".toList).filter (· ≠ []))

def joinHome (home rest : Str) : Str :=
  home.rdropWhile (fun char => char = '/' || char = '\\') ++
    '/' :: foldSlashes rest

def stripHomeToken (path token : Str) : Option Str := do
  let rest ← stripPrefix token path
  return ((stripPrefix ['/'] rest).or (stripPrefix ['\\'] rest)).getD rest

/-- What stands behind the home directory. -/
def behindHome (env : Str → Option Str) (rest : Str) : Str :=
  match homeDir env with
  | some home => joinHome home rest
  | none => '~' :: '/' :: foldSlashes rest

def expandHome (env : Str → Option Str) (path : Str) : Str :=
  match (stripPrefix ['~', '/'] path).or (stripPrefix ['~', '\\'] path) with
  | some rest => behindHome env rest
  | none =>
      if path = ['~'] then (homeDir env).getD ['~']
      else
        match (stripHomeToken path "$HOME".toList).or
            (stripHomeToken path "%USERPROFILE%".toList) with
        | some rest => behindHome env rest
        | none => path

section

variable [UnicodeTables]

def normalize (env : Str → Option Str) (path : Str) : Str :=
  toLowercase (foldSlashes (expandHome env path))

end

/-! ## Rules -/

/-- `Path::file_name`, and the whole path when that is none. -/
def fileName (norm : Str) : Str :=
  match lastStep (Segment.inside norm) with
  | some (.name file) => file
  | _ => norm

def containsDir (norm segment : Str) : Bool :=
  contains norm segment ||
    (segment.dropWhile (· = '/')).isPrefixOf norm

def privateKeys : List Str :=
  ["id_rsa".toList, "id_ed25519".toList, "id_dsa".toList, "id_ecdsa".toList]

def secretReadTarget (norm : Str) : Option Str :=
  let file := fileName norm
  if containsDir norm "/.ssh/".toList then some "path under ~/.ssh".toList
  else if "/etc/".toList.isPrefixOf norm then
    some "system path under /etc".toList
  else if file = ".env".toList || ".env.".toList.isPrefixOf file then
    some "dotenv file".toList
  else if ".pem".toList.isSuffixOf file || ".key".toList.isSuffixOf file then
    some "key material (.pem/.key)".toList
  else if privateKeys.contains file then some "ssh private key".toList
  else if contains file "credentials".toList then
    some "credentials file".toList
  else none

def profiles : List Str :=
  [".bashrc".toList, ".bash_profile".toList, ".profile".toList,
    ".zshrc".toList, ".zprofile".toList, ".zshenv".toList]

def sensitiveWriteTarget (norm : Str) : Option Str :=
  if containsDir norm "/.ssh/".toList then some "path under ~/.ssh".toList
  else if "/etc/".toList.isPrefixOf norm then
    some "system path under /etc".toList
  else if profiles.contains (fileName norm) then
    some "shell profile file".toList
  else none

/-- The text of a refusal. -/
def refusal (tool action path reason : Str) : Str :=
  tool ++ action ++ " path `".toList ++ path ++ "` blocked: ".toList ++ reason

section

variable [UnicodeTables]

def checkPath (env : Str → Option Str) (tool path : Str) (write : Bool) :
    Verdict :=
  let norm := normalize env path
  if write then
    match sensitiveWriteTarget norm with
    | some reason =>
        .block (refusal tool " write to sensitive".toList path reason)
    | none =>
        match secretReadTarget norm with
        | some reason =>
            .block (refusal tool " write to secret".toList path reason)
        | none => .allow
  else
    match secretReadTarget norm with
    | some reason => .block (refusal tool " of secret".toList path reason)
    | none => .allow

end

/-! ## What is blocked -/

/-- A rule for the last name alone. -/
def SecretFile (file : Str) : Prop :=
  file = ".env".toList ∨ ".env.".toList <+: file ∨ ".pem".toList <:+ file ∨
    ".key".toList <:+ file ∨ file ∈ privateKeys ∨
      "credentials".toList <:+: file

instance (file : Str) : Decidable (SecretFile file) := by
  unfold SecretFile
  infer_instance

def GuardedFile (write : Bool) (file : Str) : Prop :=
  SecretFile file ∨ write = true ∧ file ∈ profiles

instance (write : Bool) (file : Str) : Decidable (GuardedFile write file) := by
  unfold GuardedFile
  infer_instance

def Blocked (write : Bool) (norm : Str) : Prop :=
  containsDir norm "/.ssh/".toList = true ∨ "/etc/".toList <+: norm ∨
    GuardedFile write (fileName norm)

theorem isSome_rule {rule : Prop} [Decidable rule] {reason : Str}
    {later : Option Str} :
    (if rule then some reason else later).isSome = true ↔
      rule ∨ later.isSome = true := by
  by_cases matched : rule
  · simp [matched]
  · simp [matched]

theorem secretReadTarget_isSome_iff {norm : Str} :
    (secretReadTarget norm).isSome = true ↔
      containsDir norm "/.ssh/".toList = true ∨ "/etc/".toList <+: norm ∨
        SecretFile (fileName norm) := by
  rw [secretReadTarget, SecretFile]
  simp only [isSome_rule]
  rw [Bool.or_eq_true, Bool.or_eq_true, decide_eq_true_eq, contains,
    decide_eq_true_eq, List.contains_iff_mem, List.isPrefixOf_iff_prefix,
    List.isPrefixOf_iff_prefix, List.isSuffixOf_iff_suffix,
    List.isSuffixOf_iff_suffix, or_assoc, or_assoc]
  simp only [Option.isSome_none, Bool.false_eq_true, or_false]

theorem sensitiveWriteTarget_isSome_iff {norm : Str} :
    (sensitiveWriteTarget norm).isSome = true ↔
      containsDir norm "/.ssh/".toList = true ∨ "/etc/".toList <+: norm ∨
        fileName norm ∈ profiles := by
  simp only [sensitiveWriteTarget, isSome_rule, Option.isSome_none,
    Bool.false_eq_true, or_false, List.isPrefixOf_iff_prefix,
    List.contains_iff_mem]

theorem blocked_read_iff {norm : Str} :
    Blocked false norm ↔ (secretReadTarget norm).isSome = true := by
  rw [secretReadTarget_isSome_iff, Blocked, GuardedFile]
  simp

theorem blocked_write_iff {norm : Str} :
    Blocked true norm ↔ (sensitiveWriteTarget norm).isSome = true ∨
      (secretReadTarget norm).isSome = true := by
  rw [secretReadTarget_isSome_iff, sensitiveWriteTarget_isSome_iff, Blocked,
    GuardedFile]
  tauto

section

variable [UnicodeTables] {env : Str → Option Str} {tool path : Str}
  {write : Bool}

/-- The tier depends on the normalized path alone. -/
theorem checkPath_tier (env : Str → Option Str) (tool path : Str)
    (write : Bool) :
    Blocked write (normalize env path) ∧
        (checkPath env tool path write).tier = .block ∨
      ¬ Blocked write (normalize env path) ∧
        (checkPath env tool path write).tier = .allow := by
  cases secret : secretReadTarget (normalize env path) with
  | some reason =>
      left
      cases write with
      | false =>
          refine ⟨blocked_read_iff.mpr (by simp [secret]), ?_⟩
          simp [checkPath, secret, Verdict.block]
      | true =>
          refine ⟨blocked_write_iff.mpr (by simp [secret]), ?_⟩
          cases sensitive : sensitiveWriteTarget (normalize env path) with
          | none => simp [checkPath, secret, sensitive, Verdict.block]
          | some reason => simp [checkPath, sensitive, Verdict.block]
  | none =>
      cases write with
      | false =>
          right
          refine ⟨mt blocked_read_iff.mp (by simp [secret]), ?_⟩
          simp [checkPath, secret, Verdict.allow]
      | true =>
          cases sensitive : sensitiveWriteTarget (normalize env path) with
          | some reason =>
              left
              refine ⟨blocked_write_iff.mpr (by simp [sensitive]), ?_⟩
              simp [checkPath, sensitive, Verdict.block]
          | none =>
              right
              refine ⟨mt blocked_write_iff.mp (by simp [secret, sensitive]), ?_⟩
              simp [checkPath, secret, sensitive, Verdict.allow]

theorem tier_eq_iff {other : Str} :
    (checkPath env tool path write).tier =
        (checkPath env tool other write).tier ↔
      (Blocked write (normalize env path) ↔
        Blocked write (normalize env other)) := by
  rcases checkPath_tier env tool path write with
    ⟨blocked, tier⟩ | ⟨passes, tier⟩
  · rcases checkPath_tier env tool other write with
      ⟨blockedOther, tierOther⟩ | ⟨passesOther, tierOther⟩
    · simp [tier, tierOther, blocked, blockedOther]
    · simp [tier, tierOther, blocked, passesOther]
  · rcases checkPath_tier env tool other write with
      ⟨blockedOther, tierOther⟩ | ⟨passesOther, tierOther⟩
    · simp [tier, tierOther, passes, blockedOther]
    · simp [tier, tierOther, passes, passesOther]

/-- Nothing in front of an absolute path stands for a home. -/
theorem normalize_of_absolute (absolute : isAbsolute path = true) :
    normalize env path = toLowercase (foldSlashes path) := by
  obtain ⟨rest, rfl⟩ : ∃ rest, path = '/' :: rest := by
    cases path with
    | nil => cases absolute
    | cons first rest =>
        have slash : first = '/' := by simpa [isAbsolute] using absolute
        exact ⟨rest, by rw [slash]⟩
  rfl

/-! ## Spellings -/

/-- The names of a path between the separators that the guard accepts, after
the lexical normalization. -/
def form (path : Str) : List Str :=
  lexical (foldSlashes path)

/-- Every spelling of the names is blocked. -/
def Guarded (write : Bool) (names : List Str) : Prop :=
  (∃ name ∈ names.dropLast, toLowercase name = ".ssh".toList) ∨
  (∃ last, names.getLast? = some last ∧
      GuardedFile write (toLowercase last)) ∧
    ∃ name ∈ names, "credentials".toList <:+: toLowercase name

/-- The last name of a path is read as such, or the whole path is. -/
theorem fileName_toLowercase (laws : LowerLaws) (text : Str) :
    fileName (toLowercase text) =
      match lastStep (Segment.inside text) with
      | some (.name file) => toLowercase file
      | _ => toLowercase text := by
  rw [fileName, laws.inside_toLowercase, lastStep_lower]
  cases lastStep (Segment.inside text) with
  | none => rfl
  | some segment => cases segment <;> rfl

omit [UnicodeTables] in
/-- A name in the normal form stands between two separators of the path. -/
theorem part_of_form {name : Str} (member : name ∈ form path) :
    IsName name ∧ name ∈ (foldSlashes path).splitOn '/' := by
  have step := name_mem_of_mem_cancelled member
  obtain ⟨part, split, named⟩ := List.mem_filterMap.mp step
  obtain rfl := Segment.ofPart_eq_name named
  exact ⟨⟨named, notMem_of_mem_splitOn split⟩, split⟩

omit [UnicodeTables] in
theorem foldSlashes_of_absolute (absolute : isAbsolute path = true) :
    ∃ rest, path = '/' :: rest ∧
      (foldSlashes path).splitOn '/' = [] :: (foldSlashes rest).splitOn '/' := by
  cases path with
  | nil => cases absolute
  | cons first rest =>
      have slash : first = '/' := by simpa [isAbsolute] using absolute
      subst slash
      refine ⟨rest, rfl, ?_⟩
      exact List.splitOn_append_cons_self_of_not_mem List.not_mem_nil _

/-- A directory of the normal form stands between two slashes. -/
theorem infix_of_mem_dropLast (laws : LowerLaws) {name : Str}
    (absolute : isAbsolute path = true)
    (member : name ∈ (form path).dropLast) :
    '/' :: (toLowercase name ++ ['/']) <:+:
      toLowercase (foldSlashes path) := by
  obtain ⟨part, inside, named⟩ :=
    exists_mem_dropLast (name_mem_dropLast member)
  obtain rfl := Segment.ofPart_eq_name named
  obtain ⟨rest, -, split⟩ := foldSlashes_of_absolute absolute
  obtain ⟨front, back, whole⟩ := List.append_of_mem inside
  have nonempty := List.splitOn_ne_nil '/' (foldSlashes path)
  have parts := List.dropLast_concat_getLast nonempty
  rw [whole] at parts
  have first : front ≠ [] := by
    rintro rfl
    have empty : name = [] := (List.cons.inj (parts.trans split)).1
    subst empty
    cases named
  have lowered := laws.splitOn_toLowercase (foldSlashes path)
  rw [← parts, List.append_assoc, List.cons_append, List.map_append,
    List.map_cons] at lowered
  exact infix_of_parts (by simpa using first) (by simp) lowered

theorem blocked_of_guarded (laws : LowerLaws)
    (absolute : isAbsolute path = true)
    (guarded : Guarded write (form path)) :
    Blocked write (normalize env path) := by
  rw [normalize_of_absolute absolute]
  rcases guarded with ⟨name, member, ssh⟩ | ⟨⟨last, ends, file⟩, name, member, found⟩
  · left
    have inside := infix_of_mem_dropLast laws absolute member
    rw [ssh] at inside
    rw [containsDir, Bool.or_eq_true]
    exact .inl (decide_eq_true inside)
  · right; right
    have whole : GuardedFile write (toLowercase (foldSlashes path)) := by
      have part := (part_of_form member).2
      have lowered : toLowercase name ∈
          (toLowercase (foldSlashes path)).splitOn '/' := by
        rw [laws.splitOn_toLowercase]
        exact List.mem_map_of_mem part
      have credentials := found.trans (infix_of_part lowered)
      exact .inl (.inr (.inr (.inr (.inr (.inr credentials)))))
    rw [fileName_toLowercase laws]
    split
    · rename_i final step
      have same := getLast?_of_lastStep step
      rw [← lexical, ← form, ends] at same
      cases same
      exact file
    · exact whole

/-! ## A spelling that is blocked and one that is not -/

/-- The path behind `/etc/..`. -/
theorem behind_etc (absolute : isAbsolute path = true) :
    form ("/etc/..".toList ++ path) = form path ∧
      Blocked write (normalize env ("/etc/..".toList ++ path)) := by
  obtain ⟨rest, rfl, split⟩ := foldSlashes_of_absolute absolute
  constructor
  · have parts : (foldSlashes ("/etc/..".toList ++ '/' :: rest)).splitOn '/' =
        ["".toList, "etc".toList, "..".toList] ++
          (foldSlashes rest).splitOn '/' := by
      have folded : foldSlashes ("/etc/..".toList ++ '/' :: rest) =
          "/etc/..".toList ++ '/' :: foldSlashes rest := by
        simp [foldSlashes]
      rw [folded, List.splitOn_append_cons_self]
      rfl
    rw [form, form, lexical, lexical, Segment.inside, Segment.inside, parts,
      split]
    rfl
  · rw [normalize_of_absolute rfl]
    right; left
    exact ⟨_, rfl⟩

/-- The names behind two slashes. -/
def plain (names : List Str) : Str :=
  '/' :: render names

variable {names : List Str}

omit [UnicodeTables] in
theorem splitOn_plain (noSlash : ∀ name ∈ names, '/' ∉ name) :
    (plain names).splitOn '/' =
      [] :: [] :: if names = [] then [[]] else names := by
  have first : (plain names).splitOn '/' =
      [] :: (render names).splitOn '/' :=
    List.splitOn_append_cons_self_of_not_mem List.not_mem_nil _
  rw [first]
  split_ifs with none
  · rw [none]
    rfl
  · rw [splitOn_render noSlash none]

omit [UnicodeTables] in
theorem foldSlashes_plain (noBackslash : ∀ name ∈ names, '\\' ∉ name) :
    foldSlashes (plain names) = plain names := by
  have free : '\\' ∉ plain names := by
    rw [plain, render]
    split_ifs
    · decide
    · simpa using noBackslash
  refine (List.map_congr_left fun char member => ?_).trans (List.map_id _)
  have different : char ≠ '\\' := by
    rintro rfl
    exact free member
  rw [if_neg different, id]

/-- Two slashes in front are no `/etc/`, and no directory `.ssh` stands between
slashes. -/
theorem not_blocked_plain (laws : LowerLaws)
    (noSlash : ∀ name ∈ names, '/' ∉ name)
    (noSsh : ∀ name ∈ names.dropLast, toLowercase name ≠ ".ssh".toList)
    (file : ¬ GuardedFile write (fileName (toLowercase (plain names)))) :
    ¬ Blocked write (toLowercase (plain names)) := by
  obtain ⟨behind, start⟩ : ∃ behind,
      toLowercase (plain names) = '/' :: '/' :: behind := by
    obtain ⟨rest, rendered⟩ : ∃ rest, render names = '/' :: rest := by
      cases names with
      | nil => exact ⟨_, rfl⟩
      | cons name names => exact ⟨_, rfl⟩
    rw [plain, rendered]
    exact ⟨_, rfl⟩
  rintro (directory | etc | guarded)
  · rw [containsDir, Bool.or_eq_true] at directory
    rcases directory with between | front
    · have inside : '/' :: (".ssh".toList ++ ['/']) <:+:
          toLowercase (plain names) := of_decide_eq_true between
      have word := mem_splitOn_of_infix (by decide) inside
      rw [laws.splitOn_toLowercase, splitOn_plain noSlash, List.map_cons,
        List.map_cons] at word
      by_cases none : names = []
      · rw [if_pos none] at word
        exact absurd word (by simp [toLowercase, lowerFrom])
      · rw [if_neg none, List.dropLast_cons_of_ne_nil (List.cons_ne_nil _ _),
          List.dropLast_cons_of_ne_nil (by simpa using none),
          ← List.map_dropLast] at word
        rcases List.mem_cons.mp word with empty | word
        · cases empty
        · rcases List.mem_cons.mp word with empty | word
          · cases empty
          · obtain ⟨name, member, ssh⟩ := List.mem_map.mp word
            exact noSsh name member ssh
    · rw [start] at front
      cases front
  · rw [start] at etc
    obtain ⟨rest, same⟩ := etc
    cases same
  · exact file guarded

omit [UnicodeTables] in
/-- A whole path that ends in `..` matches a rule for files only by the word
in it. -/
theorem not_guardedFile_of_ends {norm front back : Str}
    (starts : norm = '/' :: back) (ends : norm = front ++ ['.', '.'])
    (noWord : ¬ "credentials".toList <:+: norm) : ¬ GuardedFile write norm := by
  have notEqual : ∀ char rest, char ≠ '/' → norm ≠ char :: rest := by
    rintro char rest different same
    rw [starts] at same
    exact different (List.cons.inj same).1.symm
  have notSuffix : ∀ rest char, char ≠ '.' → ¬ rest ++ [char] <:+ norm := by
    rintro rest char different ⟨before, same⟩
    have lasts := congrArg List.getLast? (same.trans ends)
    rw [← List.append_assoc, List.getLast?_concat,
      show front ++ ['.', '.'] = front ++ ['.'] ++ ['.'] by simp,
      List.getLast?_concat] at lasts
    exact different (Option.some.inj lasts)
  rintro ((env | dotenv | pem | key | ssh | word) | ⟨-, profile⟩)
  · exact notEqual '.' _ (by decide) env
  · obtain ⟨rest, same⟩ := dotenv
    exact notEqual '.' _ (by decide) same.symm
  · exact notSuffix ".pe".toList 'm' (by decide) pem
  · exact notSuffix ".ke".toList 'y' (by decide) key
  · simp only [privateKeys, List.mem_cons, List.not_mem_nil, or_false] at ssh
    rcases ssh with same | same | same | same
    all_goals exact notEqual 'i' _ (by decide) same
  · exact noWord word
  · simp only [profiles, List.mem_cons, List.not_mem_nil, or_false] at profile
    rcases profile with same | same | same | same | same | same
    all_goals exact notEqual '.' _ (by decide) same

omit [UnicodeTables] in
theorem inside_plain (noSlash : ∀ name ∈ names, '/' ∉ name) :
    Segment.inside (plain names) = names.filterMap Segment.ofPart := by
  rw [Segment.inside, splitOn_plain noSlash]
  split_ifs with none
  · rw [none]
    rfl
  · rfl

/-- A word that stands in no name stands nowhere in the path. -/
theorem not_infix_plain (laws : LowerLaws)
    (noSlash : ∀ name ∈ names, '/' ∉ name) {word : Str}
    (nonempty : word ≠ [])
    (noSlashInWord : '/' ∉ word)
    (noWord : ∀ name ∈ names, ¬ word <:+: toLowercase name) :
    ¬ word <:+: toLowercase (plain names) := by
  intro inside
  obtain ⟨part, member, found⟩ := exists_part_of_infix noSlashInWord inside
  rw [laws.splitOn_toLowercase, splitOn_plain noSlash] at member
  obtain ⟨original, inParts, rfl⟩ := List.mem_map.mp member
  have notEmpty : original ≠ [] := by
    rintro rfl
    exact nonempty (List.infix_nil.mp found)
  simp only [List.mem_cons, notEmpty, false_or] at inParts
  split_ifs at inParts
  · exact notEmpty (List.mem_singleton.mp inParts)
  · exact noWord original inParts found

/-- The names with one more that is taken back. -/
def takenBack (names : List Str) : List Str :=
  names ++ [['x'], ['.', '.']]

omit [UnicodeTables] in
theorem forall_takenBack {law : Str → Prop} (each : ∀ name ∈ names, law name)
    (letter : law ['x']) (dots : law ['.', '.']) :
    ∀ name ∈ takenBack names, law name := by
  intro name member
  rcases List.mem_append.mp member with inside | added
  · exact each name inside
  · simp only [List.mem_cons, List.not_mem_nil, or_false] at added
    rcases added with rfl | rfl
    · exact letter
    · exact dots

theorem forall_lower_takenBack (law : Str → Prop)
    (each : ∀ name ∈ names, law (toLowercase name)) (letter : law ['x'])
    (dots : law ['.', '.']) : ∀ name ∈ takenBack names, law (toLowercase name) :=
  forall_takenBack each letter dots

omit [UnicodeTables] in
theorem inside_takenBack (proper : ∀ name ∈ names, IsName name) :
    Segment.inside (plain (takenBack names)) =
      names.map .name ++ [.name ['x'], .parent] := by
  have noSlash := forall_takenBack (fun name member => (proper name member).2)
    (by decide) (by decide)
  rw [inside_plain noSlash, takenBack, List.filterMap_append,
    filterMap_ofPart proper]
  rfl

/-- The whole path is what the rules for files see, and it ends in `..`. -/
theorem not_guardedFile_takenBack (laws : LowerLaws)
    (proper : ∀ name ∈ names, IsName name)
    (noWord : ∀ name ∈ names,
      ¬ "credentials".toList <:+: toLowercase name) :
    ¬ GuardedFile write (fileName (toLowercase (plain (takenBack names)))) := by
  have noSlash := forall_takenBack (fun name member => (proper name member).2)
    (by decide) (by decide)
  have step : lastStep (Segment.inside (plain (takenBack names))) =
      some .parent := by
    rw [inside_takenBack proper, List.append_cons, lastStep_concat]
    rfl
  obtain ⟨before, ends⟩ : ∃ before,
      plain (takenBack names) = before ++ "/..".toList := by
    refine ⟨'/' :: (names ++ [['x']]).flatMap fun name => '/' :: name, ?_⟩
    simp [plain, render, takenBack]
  have lowered : toLowercase (plain (takenBack names)) =
      toLowercase before ++ ['/'] ++ ['.', '.'] := by
    rw [ends]
    exact laws.lowerFrom_append.trans (by rw [List.append_assoc]; rfl)
  obtain ⟨behind, starts⟩ : ∃ behind,
      toLowercase (plain (takenBack names)) = '/' :: behind := ⟨_, rfl⟩
  rw [fileName_toLowercase laws, step]
  apply not_guardedFile_of_ends starts lowered
  apply not_infix_plain laws noSlash (List.cons_ne_nil _ _) (by decide)
  exact forall_lower_takenBack
    (fun lowered => ¬ "credentials".toList <:+: lowered) noWord (by decide)
    (by decide)

/-- Behind a name that is taken back, the path has no last name. -/
theorem not_blocked_takenBack (laws : LowerLaws)
    (proper : ∀ name ∈ names, IsName name)
    (noBackslash : ∀ name ∈ names, '\\' ∉ name)
    (noSsh : ∀ name ∈ names, toLowercase name ≠ ".ssh".toList)
    (noWord : ∀ name ∈ names,
      ¬ "credentials".toList <:+: toLowercase name) :
    ∃ spelling, isAbsolute spelling = true ∧ form spelling = names ∧
      ¬ Blocked write (normalize env spelling) := by
  have noSlash := forall_takenBack (fun name member => (proper name member).2)
    (by decide) (by decide)
  have folded := foldSlashes_plain
    (forall_takenBack noBackslash (by decide) (by decide))
  refine ⟨plain (takenBack names), rfl, ?_, ?_⟩
  · rw [form, folded, lexical, inside_takenBack proper, List.foldl_append,
      foldl_cancel_names]
    simp [cancel]
  · rw [normalize_of_absolute rfl, folded]
    apply not_blocked_plain laws noSlash
    · intro name member
      apply forall_lower_takenBack (· ≠ ".ssh".toList) noSsh (by decide)
        (by decide) name
      exact List.dropLast_subset _ member
    · exact not_guardedFile_takenBack laws proper noWord

/-- Names that no rule is sure of have a spelling that passes. -/
theorem exists_not_blocked (laws : LowerLaws)
    (proper : ∀ name ∈ names, IsName name)
    (noBackslash : ∀ name ∈ names, '\\' ∉ name)
    (unguarded : ¬ Guarded write names) :
    ∃ spelling, isAbsolute spelling = true ∧ form spelling = names ∧
      ¬ Blocked write (normalize env spelling) := by
  obtain ⟨noSsh, noFile⟩ := not_or.mp unguarded
  have noSlash : ∀ name ∈ names, '/' ∉ name :=
    fun name member => (proper name member).2
  have quiet : ∀ name ∈ names.dropLast,
      toLowercase name ≠ ".ssh".toList :=
    fun name member ssh => noSsh ⟨name, member, ssh⟩
  rcases List.eq_nil_or_concat' names with rfl | ⟨front, last, rfl⟩
  · refine ⟨plain [], rfl, rfl, ?_⟩
    rw [normalize_of_absolute rfl, foldSlashes_plain (by simp)]
    apply not_blocked_plain laws (by simp) (by simp)
    have whole : fileName (toLowercase (plain [])) = ['/', '/'] := rfl
    rw [whole]
    cases write <;> decide
  · by_cases file : GuardedFile write (toLowercase last)
    · apply not_blocked_takenBack laws proper noBackslash
      · intro name member ssh
        rcases List.mem_append.mp member with inside | same
        · apply quiet name _ ssh
          rw [List.dropLast_concat]
          exact inside
        · rw [← List.mem_singleton.mp same, ssh] at file
          revert file
          cases write <;> decide
      · intro name member word
        exact noFile ⟨⟨last, List.getLast?_concat, file⟩, name, member, word⟩
    · refine ⟨plain (front ++ [last]), rfl, ?_, ?_⟩
      · rw [form, foldSlashes_plain noBackslash, lexical,
          inside_plain noSlash, filterMap_ofPart proper, foldl_cancel_names]
        rfl
      · rw [normalize_of_absolute rfl, foldSlashes_plain noBackslash]
        apply not_blocked_plain laws noSlash quiet
        rw [fileName_toLowercase laws, inside_plain noSlash,
          filterMap_ofPart proper, List.map_append, List.map_singleton,
          lastStep_concat, if_neg Segment.noConfusion]
        exact file

omit [UnicodeTables] in
theorem backslash_notMem_form {name : Str} (member : name ∈ form path) :
    '\\' ∉ name := by
  intro inside
  have text := (infix_of_part (part_of_form member).2).subset inside
  obtain ⟨char, -, folded⟩ := List.mem_map.mp text
  split_ifs at folded with backslash
  · exact absurd folded (by decide)
  · exact backslash folded

/-- All spellings of an absolute path have one verdict exactly when it passes
through a directory `.ssh`, or when its last name is a guarded one and the word
for credentials stands in some name. -/
theorem spellings_agree_iff (laws : LowerLaws) (env : Str → Option Str)
    (tool path : Str) (write : Bool) (absolute : isAbsolute path = true) :
    (∀ spelling, isAbsolute spelling = true → form spelling = form path →
      (checkPath env tool spelling write).tier =
        (checkPath env tool path write).tier) ↔
      Guarded write (form path) := by
  constructor
  · intro agree
    by_contra unguarded
    obtain ⟨sameBlocked, blocked⟩ := @behind_etc _ env path write absolute
    obtain ⟨passing, absolutePassing, samePassing, passes⟩ :=
      @exists_not_blocked _ env write _ laws
        (fun name member => (part_of_form member).1)
        (fun name member => backslash_notMem_form member) unguarded
    have first := tier_eq_iff.mp (agree _ rfl sameBlocked)
    have second := tier_eq_iff.mp (agree passing absolutePassing samePassing)
    exact passes (second.mpr (first.mp blocked))
  · intro guarded spelling absoluteSpelling same
    apply tier_eq_iff.mpr
    apply iff_of_true
    · apply blocked_of_guarded laws absoluteSpelling
      rw [same]
      exact guarded
    · exact blocked_of_guarded laws absolute guarded

end

/-- The tables for a text without characters beyond ASCII. -/
@[reducible] def asciiTables : UnicodeTables where
  lower char := [char]
  cased char := char.isAlpha
  caseIgnorable char := char = '.'
  graphemeExtend _ := false
  printable _ := true

theorem asciiTables_laws : @LowerLaws asciiTables := by
  refine @LowerLaws.mk asciiTables rfl rfl ?_
  intro char wide
  refine ⟨List.cons_ne_nil _ _, ?_, ?_⟩
  · intro slash
    rw [← List.mem_singleton.mp slash] at wide
    exact absurd wide (by decide)
  · intro dot
    rw [← List.mem_singleton.mp dot] at wide
    exact absurd wide (by decide)

def noEnv : Str → Option Str := fun _ => none

theorem spellings_agree_iff_ssh :
    (∀ spelling, isAbsolute spelling = true →
      form spelling = form "/home/.ssh/config".toList →
      (@checkPath asciiTables noEnv "Read".toList spelling false).tier =
        (@checkPath asciiTables noEnv "Read".toList
          "/home/.ssh/config".toList false).tier) ↔
      @Guarded asciiTables false (form "/home/.ssh/config".toList) :=
  @spellings_agree_iff asciiTables asciiTables_laws noEnv "Read".toList
    "/home/.ssh/config".toList false rfl

theorem doubledSlash_passes :
    form "//etc/passwd".toList = form "/etc/passwd".toList ∧
      (@checkPath asciiTables noEnv "Read".toList "/etc/passwd".toList
        false).tier = .block ∧
      (@checkPath asciiTables noEnv "Read".toList "//etc/passwd".toList
        false).tier = .allow := by
  decide

end Pathguard

end TrustLayer.AgentGuard
