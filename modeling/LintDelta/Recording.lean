import LintDelta.CommandLine.Program
import LintDelta.Repository

/-!
# Recordings

A recording is a repository together with what tools said when they were run on contents, as one
JSON text. It stands for the world in which the program runs, so that a contrast can be repeated
where neither the repository nor the tools are at hand.

Main statements: a tool that was not recorded on a content cannot be started on it.
-/

namespace LintDelta

open Text (Bytes)

/-- The content that a tool finds at a path: that of a temporary file, or else of a file in the
working tree below `root`. -/
def Repository.contentAt (r : Repository) (root current : Path) (temps : List TempFile)
    (path : Bytes) : Option Bytes :=
  match temps.find? fun file => file.path.bytes = path with
  | some file => some file.content
  | none =>
    let start := root.bytes ++ [Path.slash]
    let absolute := ((Path.mk path).absolute current).bytes
    if start.isPrefixOf absolute then
      (r.worktree.find? ⟨absolute.drop start.length⟩).bind Entry.fileContent
    else none

structure RecordedRun where
  program : String
  content : Bytes
  outcome : Outcome
  deriving DecidableEq, Repr

/-- A repository and the runs of tools on its files. -/
structure Recording where
  repository : Repository
  runs : List RecordedRun
  deriving DecidableEq, Repr

namespace Recording

open Json (Shape Fields)

/-! ## The stored form -/

def word : Shape := .text "a string"

def commitShape : Shape :=
  .record "a commit" (.required "id" word (.listed "parents" word
    (.required "files" (.dict word) .nil)))

/-- A run; the streams that are not given are empty, and so is no report file. -/
def runShape : Shape :=
  .record "a run" (.required "program" word (.required "content" word (.required "status" .signed
    (.optional "stdout" word (.optional "stderr" word (.optional "report" word .nil))))))

def shape : Shape :=
  .record "a recording" (.listed "commits" commitShape (.required "branches" (.dict word)
    (.required "head" word (.listed "runs" runShape .nil))))

def file : String × String → Path × Entry
  | (name, text) => (.ofString name, .file false (Text.encode text))

def branch : String × String → String × Target
  | (name, id) => (Repository.branches ++ name, .commit ⟨id⟩)

def onBranch (name : String) : HeadRef := .symbolic (Repository.branches ++ name)

def commit : commitShape.Val → Commit := fun (id, parents, files, _) =>
  ⟨⟨id⟩, parents.map CommitId.mk, OrderedMap.ofList (files.map file)⟩

def recordedRun : runShape.Val → RecordedRun :=
  fun (program, content, status, stdout, stderr, report, _) =>
    let bytes (stream : Option String) : Bytes := (stream.map Text.encode).getD []
    ⟨program, Text.encode content,
      ⟨.code status.toNat, bytes stdout, bytes stderr, report.map Text.encode⟩⟩

/-- A recording whose working tree is checked out at the branch of HEAD. -/
def ofVal : shape.Val → Recording := fun (commits, branches, head, runs, _) =>
  let fresh : Repository := {
    commits := commits.map commit
    refs := OrderedMap.ofList (branches.map branch)
    head := onBranch head
    index := ∅
    worktree := ∅
    tracking := .renames }
  ⟨{ fresh with index := fresh.headSnapshot, worktree := fresh.headSnapshot },
    runs.map recordedRun⟩

def readText (text : String) : Except Json.Error Recording :=
  (shape.readText text).map ofVal

/-! ## As a world -/

def root : Path := .ofString "/project"

def unrecorded : String := "no such run was recorded"

/-- What a tool left behind when it was run on the content that its last argument names. -/
def start (recording : Recording) (command : Command) (temps : List TempFile)
    (world : Repository) : Except String Outcome :=
  let content := command.arguments.getLast?.bind (world.contentAt root root temps)
  match recording.runs.find? fun r => r.program = command.program ∧ content = some r.content with
  | some run => .ok run.outcome
  | none => .error unrecorded

def partName : Origin → String
  | .program => "program"
  | .contrast => "contrast"
  | .versions => "versions"
  | .tools => "tools"

def host (recording : Recording) (logFilter color : Option String) :
    CommandLine.Host Repository where
  discover directory :=
    ((Site.tree recording.repository).discover root root (.ofString directory)).map
      Repository.services
  start := recording.start
  temp := ⟨.ofString "/temporary", true, fun n => toString n⟩
  logFilter := logFilter
  color := color
  partName := partName

/-! ## Laws -/

theorem start_of_runs_eq_nil {recording : Recording} (h : recording.runs = []) (command : Command)
    (temps : List TempFile) (world : Repository) :
    recording.start command temps world = .error unrecorded := by
  simp [start, h]

end Recording

end LintDelta
