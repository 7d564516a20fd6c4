import LintDelta.Change
import LintDelta.Tally

/-!
# Reports

What a contrast finds: the linted files with their tallies before and after, the totals over them,
how many files there were of each class, and the files that could not be linted.

Main statements: a new report lists every class with no files.
-/

namespace LintDelta

/-- The findings in one linted file. -/
structure FileDiff where
  change : Change
  kind : Change.Kind
  linter : String
  pre : Tally
  post : Tally
  /-- What the change adds to the tally. -/
  net : Tally
  deriving DecidableEq, Repr

def FileDiff.make (change : Change) (kind : Change.Kind) (linter : String) (pre post : Tally) :
    Option FileDiff := do
  return ⟨change, kind, linter, pre, post, ← Tally.net pre post⟩

def FileDiff.isUnchanged (f : FileDiff) : Bool := f.net.isEmpty

/-- A file that is left out because it could not be linted. -/
structure FileFailure where
  path : Path
  linter : String
  error : String
  deriving DecidableEq, Repr

abbrev FileCounts := OrderedMap String Nat

/-- The findings of a contrast. -/
structure Report where
  source : CommitId
  target : CommitId
  /-- The linted files, in the order of the changes. -/
  files : List FileDiff
  preTotal : Tally
  postTotal : Tally
  netTotal : Tally
  /-- The changes of each class, and the linted files of each class and linter. -/
  fileCounts : FileCounts
  failures : List FileFailure
  deriving DecidableEq, Repr

namespace Report

def start (source target : CommitId) : Report where
  source := source
  target := target
  files := []
  preTotal := ∅
  postTotal := ∅
  netTotal := ∅
  fileCounts := OrderedMap.ofList (Change.Kind.all.map fun kind => (kind.label, 0))
  failures := []

/-- The number of files under a name; zero when there is none. -/
def fileCount (r : Report) (name : String) : Nat :=
  (r.fileCounts.find? name).getD 0

def countFile (r : Report) (name : String) : Option Report := do
  return { r with fileCounts := r.fileCounts.insert name (← Machine.next (r.fileCount name)) }

def lintedName (kind : Change.Kind) (linter : String) : String :=
  kind.label ++ "_" ++ linter

/-- Adds the tallies of a file to the totals and lists it. -/
def addFile (r : Report) (file : FileDiff) : Option Report := do
  return { r with
    preTotal := ← r.preTotal.add file.pre
    postTotal := ← r.postTotal.add file.post
    netTotal := ← r.netTotal.add file.net
    files := r.files ++ [file] }

def record (r : Report) (file : FileDiff) : Option Report := do
  (← r.countFile (lintedName file.kind file.linter)).addFile file

def noteFailure (r : Report) (failure : FileFailure) : Report :=
  { r with failures := r.failures ++ [failure] }

/-! ## Laws -/

theorem find?_fileCounts_start (source target : CommitId) (kind : Change.Kind) :
    (start source target).fileCounts.find? kind.label = some 0 := by
  cases kind <;>
    simp [start, OrderedMap.ofList, Change.Kind.all, Change.Kind.label,
      OrderedMap.find?_insert_self, OrderedMap.find?_insert_of_ne]

end Report

end LintDelta
