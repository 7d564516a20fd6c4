import LintDelta.Json.Codec
import LintDelta.Report

/-!
# Structured reports

The form of a report for machines: for each linter and symbol the counts before and after, then the
numbers of files, then the failures if there are any. A symbol that one linter reports under several
categories has a key for each of them.

Main statements: a symbol of one category is its own key.
-/

namespace LintDelta

/-- The counts of an issue before and after, with its category. -/
structure IssueEntry where
  pre : Int
  post : Int
  category : Category
  deriving DecidableEq, Repr

structure StructuredReport where
  /-- The entries of each linter, by symbol. -/
  results : OrderedMap String (OrderedMap String IssueEntry)
  fileCounts : FileCounts
  failures : List FileFailure
  deriving DecidableEq, Repr

namespace StructuredReport

/-- Whether one linter reports a symbol under several categories. -/
def isShared (movements : List Tally.Movement) (i : Issue) : Bool :=
  1 < movements.countP fun m => m.issue.linter = i.linter && m.issue.symbol = i.symbol

/-- The key of an issue among those of its linter. -/
def key (movements : List Tally.Movement) (i : Issue) : String :=
  if isShared movements i then i.symbol ++ " (" ++ i.category.label ++ ")" else i.symbol

def enter (movements : List Tally.Movement) (results : OrderedMap String (OrderedMap String IssueEntry))
    (m : Tally.Movement) : OrderedMap String (OrderedMap String IssueEntry) :=
  let entries := (results.find? m.issue.linter).getD ∅
  results.insert m.issue.linter
    (entries.insert (key movements m.issue) ⟨m.pre, m.post, m.issue.category⟩)

def resultsOf (pre post : Tally) : OrderedMap String (OrderedMap String IssueEntry) :=
  let movements := Tally.compare pre post
  movements.foldl (enter movements) ∅

def ofReport (r : Report) : StructuredReport :=
  ⟨resultsOf r.preTotal r.postTotal, r.fileCounts, r.failures⟩

theorem key_of_not_shared {movements : List Tally.Movement} {i : Issue}
    (h : isShared movements i = false) : key movements i = i.symbol := by
  simp [key, h]

end StructuredReport

end LintDelta
