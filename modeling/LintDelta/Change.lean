import LintDelta.Commit
import LintDelta.Path

/-!
# Changes

What happened to one file between two commits: it was added, deleted, or modified, and a modified
file may have been renamed. A change has a side before it and a side after it, of which an added and
a deleted file have one each.

Main statements: every change has at least one side, its path is the path of its last side, and its class
tells which side is missing.
-/

namespace LintDelta

/-- What happened to one file between two commits. -/
inductive Change where
  | added (path : Path) (blob : BlobId)
  | deleted (path : Path) (blob : BlobId)
  | modified (prePath : Path) (preBlob : BlobId) (postPath : Path) (postBlob : BlobId)
      (renamed : Bool)
  deriving DecidableEq, Repr

/-- A version of a file: where it stood and what it held. -/
structure Version where
  path : Path
  blob : BlobId
  deriving DecidableEq, Repr

namespace Change

def pre : Change → Option Version
  | added .. => none
  | deleted path blob => some ⟨path, blob⟩
  | modified prePath preBlob .. => some ⟨prePath, preBlob⟩

def post : Change → Option Version
  | added path blob => some ⟨path, blob⟩
  | deleted .. => none
  | modified _ _ postPath postBlob _ => some ⟨postPath, postBlob⟩

/-- The path by which a change is known: the new one, or the old one of a deleted file. -/
def path : Change → Path
  | added path _ => path
  | deleted path _ => path
  | modified _ _ postPath _ _ => postPath

def isRenamed : Change → Bool
  | modified _ _ _ _ renamed => renamed
  | _ => false

inductive Kind where
  | added
  | deleted
  | modified
  /-- The content is the same on both sides. -/
  | unchanged
  deriving DecidableEq, Repr

/-- The class of a change; a modified file that keeps its content is unchanged. -/
def kind : Change → Kind
  | added .. => .added
  | deleted .. => .deleted
  | modified _ preBlob _ postBlob _ => if preBlob = postBlob then .unchanged else .modified

def Kind.label : Kind → String
  | .added => "added"
  | .deleted => "deleted"
  | .modified => "modified"
  | .unchanged => "unchanged"

def Kind.all : List Kind := [.added, .deleted, .modified, .unchanged]

/-! ## Laws -/

theorem pre_or_post (c : Change) : c.pre.isSome ∨ c.post.isSome := by
  cases c <;> simp [pre, post]

theorem path_eq_of_post {c : Change} {v : Version} (h : c.post = some v) : c.path = v.path := by
  cases c <;> simp_all [post, path] <;> exact h ▸ rfl

theorem kind_eq_unchanged_iff {c : Change} : c.kind = .unchanged ↔
    ∃ prePath blob postPath renamed, c = modified prePath blob postPath blob renamed := by
  cases c with
  | added => simp [kind]
  | deleted => simp [kind]
  | modified _ preBlob _ postBlob _ =>
    by_cases hb : preBlob = postBlob
    · simp [kind, hb]
    · simp [kind, hb, Ne.symm hb]

theorem pre_eq_none_iff {c : Change} : c.pre = none ↔ c.kind = .added := by
  cases c with
  | added => simp [pre, kind]
  | deleted => simp [pre, kind]
  | modified _ preBlob _ postBlob _ => by_cases hb : preBlob = postBlob <;> simp [pre, kind, hb]

theorem post_eq_none_iff {c : Change} : c.post = none ↔ c.kind = .deleted := by
  cases c with
  | added => simp [post, kind]
  | deleted => simp [post, kind]
  | modified _ preBlob _ postBlob _ => by_cases hb : preBlob = postBlob <;> simp [post, kind, hb]

end Change

end LintDelta
