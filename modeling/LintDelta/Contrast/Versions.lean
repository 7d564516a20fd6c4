import LintDelta.Linter.Adapter
import LintDelta.VersionControl

/-!
# Linting the versions of a file

A linter sees a version of a file in one of two ways. Most need the file alone, and get a temporary
copy with the extension of the file. The others need the project around it, and are run in the
working tree after a checkout; HEAD is put back when they are done, however they end.

Main statements: a side that does not exist has no issues, and costs nothing.
-/

namespace LintDelta

/-- Something that tallies the issues of a file. -/
structure Linter (σ : Type) where
  name : String
  /-- Whether it needs the project around a file. -/
  needsCheckout : Bool
  lint : Path → Run σ Tally

def Adapter.linter {σ : Type} (a : Adapter) (box : Toolbox σ) : Linter σ :=
  ⟨a.name, a.tool.needsCheckout, a.lint box⟩

/-- A version of a file at one of the two commits. -/
structure Side where
  commit : CommitId
  version : Version
  deriving DecidableEq, Repr

namespace Side

def path (s : Side) : Path := s.version.path

def before (change : Change) (source : CommitId) : Option Side :=
  change.pre.map (⟨source, ·⟩)

def after (change : Change) (target : CommitId) : Option Side :=
  change.post.map (⟨target, ·⟩)

end Side

/-- Where the versions of files come from, and how temporary files and notices are handled. -/
structure Bench (σ : Type) where
  vcs : VersionControl σ
  box : Toolbox σ

namespace Bench

variable {σ : Type}

/-- Lints a file that stands for a side; a failure of the tool names the path of the side. -/
def lintAs (side : Side) (linter : Linter σ) (file : Path) : Run σ Tally :=
  (linter.lint file).reword (Failure.attributeTo side.path)

/-! ## Copies -/

/-- What a failure to read a blob means for a file. -/
def copyFailure (path : Path) : Failure → Failure
  | .io m => .resource path ("failed to write temporary file: " ++ m)
  | e => e

/-- Lints a temporary copy of a side. -/
def lintCopy (b : Bench σ) (linter : Linter σ) (side : Side) : Run σ Tally :=
  b.box.temp.withFile "git-contrast-" (side.path.extension.getD "")
    (fun reason => .resource side.path ("failed to create temporary file: " ++ reason))
    fun file => do
      let content ← (Run.call (.readBlob side.version.blob)
        (b.vcs.readBlob side.version.blob)).reword (copyFailure side.path)
      TempDirectory.fill content
      -- an id that cannot be cut stops the run here, but only if the notice is shown
      b.box.notify .versions .debug do
        return .lintingCopy linter.name side.path (← Run.need .splitCharacter side.commit.short)
      lintAs side linter file

def lintCopy? (b : Bench σ) (linter : Linter σ) : Option Side → Run σ Tally
  | none => return ∅
  | some side => b.lintCopy linter side

/-! ## The working tree -/

def uncommitted : String := "working tree has uncommitted changes, refusing to check out"

/-- Where HEAD is, provided that the working tree can be switched. -/
def holdTree (b : Bench σ) (path : Path) : Run σ Head := do
  let asResource (e : Failure) : Failure := .resource path e.message
  let clean ← (Run.call .isClean b.vcs.isClean).reword asResource
  if clean then (Run.call .head b.vcs.head).reword asResource
  else Run.fail (.resource path uncommitted)

/-- Says which side is checked out next. -/
def announce (b : Bench σ) (linter : Linter σ) (side : Side) : Run σ Unit :=
  b.box.notify .versions .debug do
    return .checkingOut linter.name side.path (← Run.need .splitCharacter side.commit.short)

/-- Checks a side out and lints it in the working tree. -/
def visit (b : Bench σ) (linter : Linter σ) (side : Side) : Run σ Tally := do
  let target := Head.detached side.commit
  (Run.call (.checkout target) (b.vcs.checkout target)).reword
    fun e => .resource side.path e.message
  lintAs side linter (b.vcs.workdir.join side.path)

/-- Puts HEAD back where it was; a failure to do so is only noted. -/
def restore (b : Bench σ) (initial : Head) : Run σ Unit := do
  match ← (Run.call (.checkout initial) (b.vcs.checkout initial)).attempt with
  | .ok () => return
  | .error e =>
    b.box.notify .versions .warn do
      return .notRestored (← Run.need .splitCharacter initial.display) e.message

/-- Lints the sides of a change in the working tree. -/
def lintInTree (b : Bench σ) (linter : Linter σ) (path : Path) (pre post : Option Side) :
    Run σ (Tally × Tally) := do
  let initial ← b.holdTree path
  match pre, post with
  | none, none => return (∅, ∅)
  | some side, none =>
    b.announce linter side
    Run.ensuring (do return (← b.visit linter side, ∅)) (b.restore initial)
  | none, some side =>
    b.announce linter side
    Run.ensuring (do return (∅, ← b.visit linter side)) (b.restore initial)
  | some first, some second =>
    b.announce linter first
    -- HEAD is put back once, behind the second side
    let both := do
      let pre ← b.visit linter first
      b.announce linter second
      return (pre, ← b.visit linter second)
    both.ensuring (b.restore initial)

/-! ## Both sides of a change -/

/-- Lints both sides of a change in the way that the linter needs. -/
def lintChange (b : Bench σ) (linter : Linter σ) (change : Change) (source target : CommitId) :
    Run σ (Tally × Tally) :=
  let pre := Side.before change source
  let post := Side.after change target
  if linter.needsCheckout then b.lintInTree linter change.path pre post
  else do
    let before ← b.lintCopy? linter pre
    return (before, ← b.lintCopy? linter post)

/-! ## Laws -/

theorem lintCopy?_none (b : Bench σ) (linter : Linter σ) : b.lintCopy? linter none = pure ∅ := rfl

end Bench

end LintDelta
