import LintDelta.Change
import LintDelta.Failure

/-!
# Version control

What a contrast asks of a version control system, as functions on the state `σ` of the outside
world. Every call may fail, and every call may change the state, also when it fails.
-/

namespace LintDelta

/-- The services of a version control system. -/
structure VersionControl (σ : Type) where
  workdir : Path
  resolveRange : List String → σ → Except Failure (CommitId × CommitId) × σ
  changes : CommitId → CommitId → σ → Except Failure (List Change) × σ
  readBlob : BlobId → σ → Except Failure Text.Bytes × σ
  head : σ → Except Failure Head × σ
  /-- Whether the tracked files are as they were committed. -/
  isClean : σ → Except Failure Bool × σ
  checkout : Head → σ → Except Failure Unit × σ

end LintDelta
