import LintDelta.Contrast.Versions
import LintDelta.Policy
import LintDelta.Report
import LintDelta.Routing

/-!
# Contrasts

A contrast walks the files that changed between two commits. It lints both versions of every changed
file that has a linter, and enters what it finds into a report.

Main statements: without changes the report is the one from which every contrast starts.
-/

namespace LintDelta

/-- The choices of a contrast, over linters of type `α`. -/
structure Options (α : Type) where
  language : Option Language
  routing : Routing α
  policy : Policy
  deriving Repr

/-- Every language, the standard routes, and failures are passed over. -/
def Options.standard : Options Adapter := ⟨none, Routing.standard, .degrade⟩

/-- The same choices, with the tools run by a toolbox. -/
def Options.equip {σ : Type} (options : Options Adapter) (box : Toolbox σ) : Options (Linter σ) :=
  { options with routing := options.routing.map (·.linter box) }

namespace Bench

variable {σ : Type}

/-- A report on one more file that has a linter. -/
def contrastFile (b : Bench σ) (policy : Policy) (report : Report) (change : Change)
    (linter : Linter σ) : Run σ Report := do
  match ← (b.lintChange linter change report.source report.target).attempt with
  | .ok (pre, post) =>
    -- no policy passes over a count that is lost
    let file ← Run.need .overflow (FileDiff.make change change.kind linter.name pre post)
    Run.need .overflow (report.record file)
  | .error e =>
    if e.isPerFile && policy = .degrade then
      b.box.notify .contrast .warn (return .skippingFile change.path linter.name e.message)
      return report.noteFailure ⟨change.path, linter.name, e.message⟩
    else Run.fail e

/-- A report on one more change. -/
def contrastChange (b : Bench σ) (options : Options (Linter σ)) (report : Report)
    (change : Change) : Run σ Report := do
  -- every change counts under its class, with a linter or without
  let report ← Run.need .overflow (report.countFile change.kind.label)
  if change.kind = .unchanged then
    b.box.notify .contrast .debug (return .contentUnchanged change.path)
    return report
  else match options.routing.select change.path options.language with
    | none =>
      b.box.notify .contrast .debug (return .noLinter change.path)
      return report
    | some linter =>
      b.box.notify .contrast .debug (return .lintingFile change.path change.kind linter.name)
      b.contrastFile options.policy report change linter

def contrastAll (b : Bench σ) (options : Options (Linter σ)) (report : Report)
    (changes : List Change) : Run σ Report :=
  changes.foldlM (b.contrastChange options) report

/-- Contrasts two commits. -/
def contrast (b : Bench σ) (options : Options (Linter σ)) (source target : CommitId) :
    Run σ Report := do
  b.box.notify .contrast .info do
    let shortSource ← Run.need .splitCharacter source.short
    return .contrasting shortSource (← Run.need .splitCharacter target.short)
  let changes ← Run.call (.changes source target) (b.vcs.changes source target)
  let report ← b.contrastAll options (Report.start source target) changes
  b.box.notify .contrast .info do
    return .complete report.files.length report.failures.length
      (← Run.need .overflow report.netTotal.total)
  return report

def contrastRange (b : Bench σ) (options : Options (Linter σ)) (range : List String) :
    Run σ Report := do
  let (source, target) ← Run.call (.resolveRange range) (b.vcs.resolveRange range)
  b.contrast options source target

/-! ## Laws -/

theorem contrastAll_nil (b : Bench σ) (options : Options (Linter σ)) (report : Report) :
    b.contrastAll options report [] = pure report := rfl

end Bench

end LintDelta
