import LintDelta.Change
import LintDelta.Digest
import LintDelta.OrderedMap

/-!
# Snapshots

What a commit records of a directory: the entries at their paths. Directories are implied by the
paths below them. A blob is known by the digest of its content, so equal content has equal ids.

Main statements: the id of a file depends on its content alone.
-/

namespace LintDelta

open Text (Bytes)

inductive Entry where
  | file (executable : Bool) (content : Bytes)
  | link (target : Bytes)
  /-- A commit of another repository. -/
  | submodule (commit : CommitId)
  deriving DecidableEq, Repr

def BlobId.ofContent (content : Bytes) : BlobId :=
  ⟨Digest.sha1 (Text.encode ("blob " ++ toString content.length ++ "\x00") ++ content)⟩

namespace Entry

def fileContent : Entry → Option Bytes
  | file _ content => some content
  | _ => none

/-- The content of a file, or the target of a link. -/
def blobContent : Entry → Option Bytes
  | file _ content => some content
  | link target => some target
  | submodule _ => none

def fileBlob (e : Entry) : Option BlobId :=
  e.fileContent.map BlobId.ofContent

end Entry

/-- The entries of a directory and all below it. -/
abbrev Snapshot := OrderedMap Path Entry

theorem Entry.fileBlob_file (executable : Bool) (content : Bytes) :
    (Entry.file executable content).fileBlob = some (BlobId.ofContent content) := rfl

end LintDelta
