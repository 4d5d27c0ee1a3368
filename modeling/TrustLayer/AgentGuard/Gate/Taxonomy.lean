import TrustLayer.AgentGuard.Gate.Compound
import TrustLayer.Library.Regex

/-!
# The destructive-command taxonomy

Per-leg rules, the text they run against, and the analyses that need the
command before it is split.
-/

namespace TrustLayer.AgentGuard.Gate

open TrustLayer.Library
open TrustLayer.Library.Regex

structure DestructiveRule where
  id : Str
  severity : Nat
  category : Str
  matcher : Str → Bool

/-! ## Matchers

Every pattern of the source is under `(?i)`. -/

/-- `[^|;&\n]*`. -/
def withinLeg : Regex := .star (noneOf "|;&\n")

/-- `\b<verb>\b`. -/
def verb (name : String) : Regex :=
  all [.wordBoundary, literal name, .wordBoundary]

/-- `\s-[a-z]*`, the start of a bundle of short flags. -/
def shortFlags : Regex :=
  all [space, literal "-", .star letter]

/-- `\s/(\s|$)`. -/
def rootTarget : Regex :=
  all [space, literal "/", .alt space .textEnd]

/-- `\s0?777\b`. -/
def mode777 : Regex :=
  all [space, optional (literal "0"), literal "777", .wordBoundary]

def mRmRf (text : Str) : Bool :=
  (Regex.alt
    (all [verb "rm", withinLeg, shortFlags, literal "r", .star letter, literal "f"])
    (all [verb "rm", withinLeg, shortFlags, literal "f", .star letter,
      literal "r"])).isMatch text

def mFindDelete (text : Str) : Bool :=
  (all [verb "find", .star dot, literal "-delete", .wordBoundary]).isMatch text

def mFindExecRm (text : Str) : Bool :=
  (all [verb "find", .star dot, literal "-exec", plus space, literal "rm",
    .wordBoundary]).isMatch text

def mDd (text : Str) : Bool :=
  (all [verb "dd", withinLeg, space, literal "if="]).isMatch text

def mMkfs (text : Str) : Bool :=
  (all [.wordBoundary, literal "mkfs",
    optional (all [literal ".", plus word]), .wordBoundary]).isMatch text

def mChmod777 (text : Str) : Bool :=
  (all [verb "chmod", withinLeg, mode777]).isMatch text

def mChmodRecursive (text : Str) : Bool :=
  (all [verb "chmod", withinLeg, shortFlags, literal "r"]).isMatch text

def mChownRecursiveRoot (text : Str) : Bool :=
  (all [verb "chown", withinLeg, shortFlags, literal "r", withinLeg,
    rootTarget]).isMatch text

def mForkBomb (text : Str) : Bool :=
  contains (text.filter fun char => !isWhitespace char) ":(){:|:&};:".toList

/-- `\s-[a-z]*R[a-z]*\b`, a whole bundle of flags with the recursive one. -/
def recursiveFlags : Regex :=
  all [shortFlags, literal "r", .star letter, .wordBoundary]

def mChmodRecursive777Root (text : Str) : Bool :=
  (all [verb "chmod", withinLeg, recursiveFlags, withinLeg, mode777, withinLeg,
    rootTarget]).isMatch text ||
  (all [verb "chmod", withinLeg, mode777, withinLeg, recursiveFlags, withinLeg,
    rootTarget]).isMatch text

def mWriteBlockDevice (text : Str) : Bool :=
  (all [.alt (literal ">") (literal "of="), .star space, literal "/dev/",
    oneOf (all [literal "sd", letter])
      [all [literal "nvme", plus digit, literal "n", plus digit],
        all [literal "vd", letter],
        all [literal "hd", letter],
        all [literal "mmcblk", plus digit]]]).isMatch text

def mMvToDevnull (text : Str) : Bool :=
  (all [verb "mv", withinLeg, space, literal "/dev/null",
    .wordBoundary]).isMatch text

def mFetchRunInline (text : Str) : Bool :=
  (all [.wordBoundary,
    oneOf (literal "bash")
      [literal "sh", literal "zsh", literal "eval",
        all [literal "python", optional digit], literal "perl", literal "ruby"],
    .wordBoundary, .star dot, literal "$(", .star space,
    .alt (literal "curl") (literal "wget"), .wordBoundary]).isMatch text

/-- All per-leg destructive rules. -/
def rules : List DestructiveRule :=
  [{ id := "rm-rf".toList, severity := 9
     category := "destructive".toList, matcher := mRmRf },
   { id := "find-delete".toList, severity := 8
     category := "destructive".toList, matcher := mFindDelete },
   { id := "find-exec-rm".toList, severity := 8
     category := "destructive".toList, matcher := mFindExecRm },
   { id := "dd-overwrite".toList, severity := 8
     category := "destructive".toList, matcher := mDd },
   { id := "mkfs".toList, severity := 9
     category := "destructive".toList, matcher := mMkfs },
   { id := "chmod-777".toList, severity := 6
     category := "permissions".toList, matcher := mChmod777 },
   { id := "chmod-recursive".toList, severity := 6
     category := "permissions".toList, matcher := mChmodRecursive },
   { id := "chmod-recursive-777-root".toList, severity := 9
     category := "permissions".toList, matcher := mChmodRecursive777Root },
   { id := "chown-recursive-root".toList, severity := 9
     category := "permissions".toList, matcher := mChownRecursiveRoot },
   { id := "fork-bomb".toList, severity := 9
     category := "dos".toList, matcher := mForkBomb },
   { id := "write-block-device".toList, severity := 9
     category := "destructive".toList, matcher := mWriteBlockDevice },
   { id := "mv-to-devnull".toList, severity := 7
     category := "destructive".toList, matcher := mMvToDevnull },
   { id := "fetch-run-inline".toList, severity := 8
     category := "remote-exec".toList, matcher := mFetchRunInline }]

/-! ## Domain packs -/

namespace Packs

def mAwsS3RbForce (text : Str) : Bool :=
  (all [verb "aws", plus space, literal "s3", .wordBoundary, plus space,
    literal "rb", .wordBoundary, withinLeg, space, literal "--force",
    .wordBoundary]).isMatch text

def mAwsDelete (text : Str) : Bool :=
  (all [verb "aws", withinLeg, space,
    .alt (all [literal "delete-", plus word]) (literal "terminate-instances"),
    .wordBoundary]).isMatch text

/-- `\b<verb>\b[^|;&\n]*\sdelete\b`. -/
def mCliDelete (name : String) (text : Str) : Bool :=
  (all [verb name, withinLeg, space, literal "delete",
    .wordBoundary]).isMatch text

def mGcloudDelete : Str → Bool := mCliDelete "gcloud"

def mAzDelete : Str → Bool := mCliDelete "az"

def cloud : List DestructiveRule :=
  [{ id := "aws-s3-rb-force".toList, severity := 9
     category := "cloud".toList, matcher := mAwsS3RbForce },
   { id := "aws-delete".toList, severity := 8
     category := "cloud".toList, matcher := mAwsDelete },
   { id := "gcloud-delete".toList, severity := 8
     category := "cloud".toList, matcher := mGcloudDelete },
   { id := "az-delete".toList, severity := 8
     category := "cloud".toList, matcher := mAzDelete }]

def mDropTable (text : Str) : Bool :=
  (all [.wordBoundary, literal "drop", plus space, literal "table",
    .wordBoundary]).isMatch text

def mDropDatabase (text : Str) : Bool :=
  (all [.wordBoundary, literal "drop", plus space,
    .alt (literal "database") (literal "schema"), .wordBoundary]).isMatch text

def mTruncate (text : Str) : Bool :=
  (all [.wordBoundary, literal "truncate", plus space,
    .alt (all [literal "table", .wordBoundary]) word]).isMatch text

def db : List DestructiveRule :=
  [{ id := "drop-table".toList, severity := 8
     category := "db".toList, matcher := mDropTable },
   { id := "drop-database".toList, severity := 9
     category := "db".toList, matcher := mDropDatabase },
   { id := "truncate".toList, severity := 8
     category := "db".toList, matcher := mTruncate }]

def mDockerSystemPrune (text : Str) : Bool :=
  (all [verb "docker", plus space,
    oneOf (literal "system") [literal "image", literal "volume",
      literal "network", literal "container"],
    plus space, literal "prune", .wordBoundary, withinLeg, shortFlags,
    letterOf fun char => char == 'a' || char == 'f']).isMatch text

def mDockerRmForce (text : Str) : Bool :=
  (all [verb "docker", plus space,
    optional (all [literal "container", plus space]),
    .alt (literal "rm") (literal "rmi"), .wordBoundary, withinLeg, shortFlags,
    literal "f"]).isMatch text

def mKubectlDeleteAll (text : Str) : Bool :=
  (all [verb "kubectl", plus space, literal "delete", .wordBoundary, withinLeg,
    space, literal "--all", .wordBoundary]).isMatch text

def container : List DestructiveRule :=
  [{ id := "docker-system-prune".toList, severity := 8
     category := "container".toList, matcher := mDockerSystemPrune },
   { id := "docker-rm-force".toList, severity := 8
     category := "container".toList, matcher := mDockerRmForce },
   { id := "kubectl-delete-all".toList, severity := 9
     category := "container".toList, matcher := mKubectlDeleteAll }]

/-- `rules_for`; unknown names are ignored. -/
def rulesFor (name : Str) : List DestructiveRule :=
  if name = "cloud".toList then cloud
  else if name = "db".toList then db
  else if name = "container".toList then container
  else []

def enabledRules (names : List Str) : List DestructiveRule :=
  names.flatMap rulesFor

end Packs

/-! ## Verb awareness -/

/-- The head verb is one whose quoted arguments are data. -/
def isNonExecutingVerb (leg : Str) : Bool :=
  match splitWhitespace (trimStart leg) with
  | [] => false
  | verb :: words =>
      if verb = "echo".toList ∨ verb = "printf".toList then true
      else if verb = "git".toList then
        match words with
        | [] => false
        | word :: _ =>
            word == "commit".toList || word == "tag".toList ||
              word == "notes".toList
      else false

def isComment (leg : Str) : Bool :=
  (trimStart leg).head? == some '#'

/-- The output so far and the quote whose body is being skipped. -/
structure StripState where
  out : Str
  skipping : Option Char
  deriving DecidableEq

/-- Emit everything but the bodies of quoted spans; backslashes do not
count. -/
def stripStep (state : StripState) (byte : Char) (_ : List Char) :
    StripState × Nat :=
  match state.skipping with
  | none =>
      ({ out := state.out ++ [byte]
         skipping := if byte = '"' ∨ byte = '\'' then some byte else none }, 0)
  | some quote =>
      if byte = quote then
        ({ out := state.out ++ [byte], skipping := none }, 0)
      else (state, 0)

def stripQuotedSpans (leg : Str) : Str :=
  (walk stripStep (asBytes leg) 0 { out := [], skipping := none }).out

/-- The text the matchers run against. -/
def effectiveMatchText (leg : Str) : Str :=
  if isComment leg then []
  else if isNonExecutingVerb leg then stripQuotedSpans leg
  else leg

def liveSubstitutionBodies (leg : Str) : List Str :=
  if isComment leg then []
  else if isNonExecutingVerb leg = false then []
  else extractDoubleQuotedSubstitutions leg

/-! ## Pre-split analyses -/

/-- What a pre-split analysis reports: rule id, severity and category. -/
abbrev PresplitHit := Str × Nat × Str

def isShellInterpreter (head : Str) : Bool :=
  ["sh", "bash", "zsh", "dash", "ksh", "fish", "eval"].any
      (fun name => head == name.toList) ||
    "python".toList.isPrefixOf head ||
    head == "perl".toList || head == "ruby".toList || head == "node".toList

def isFetch (head : Str) : Bool :=
  head == "curl".toList || head == "wget".toList

/-- Some stage headed by a shell interpreter comes after a fetch stage. -/
def fetchThenShell : (sawFetch : Bool) → (heads : List Str) → Bool
  | _, [] => false
  | sawFetch, head :: heads =>
      if isFetch head then fetchThenShell true heads
      else if sawFetch && isShellInterpreter head then true
      else fetchThenShell sawFetch heads

def stageHead (stage : Str) : Str :=
  (splitWhitespace (trim stage)).headD []

def fetchPipeToShell (command : Str) : Option PresplitHit :=
  let stages := splitChar '|' command
  if stages.length < 2 then none
  else if fetchThenShell false (stages.map stageHead) then
    some ("curl-wget-pipe-shell".toList, 9, "remote-exec".toList)
  else none

def forkBombPresplit (command : Str) : Option PresplitHit :=
  if mForkBomb command then some ("fork-bomb".toList, 9, "dos".toList) else none

end TrustLayer.AgentGuard.Gate
