import LintDelta.Repository.TreeDiff

/-!
# Repositories

Commits with their parents and snapshots, references that name them, HEAD, the index and the working
tree. A reference is kept under its full name, such as `refs/heads/main`.

Main statements: a HEAD that holds a commit is shown as that commit.
-/

namespace LintDelta

open Text (Bytes)

/-- A recorded state with the states that it comes from. -/
structure Commit where
  id : CommitId
  parents : List CommitId
  snapshot : Snapshot
  deriving DecidableEq, Repr

/-- What a reference names. -/
inductive Target where
  | commit (id : CommitId)
  | blob (content : Bytes)
  | tag (target : Target)
  deriving DecidableEq, Repr

/-- What HEAD holds: the full name of a branch, which need not exist yet, or a commit. -/
inductive HeadRef where
  | symbolic (name : String)
  | direct (commit : CommitId)
  deriving DecidableEq, Repr

structure Repository where
  commits : List Commit
  /-- What the references name, by full name. -/
  refs : OrderedMap String Target
  head : HeadRef
  index : Snapshot
  worktree : Snapshot
  /-- Which derivations comparisons look for. -/
  tracking : Tracking
  deriving DecidableEq, Repr

namespace Repository

def branches : String := "refs/heads/"

def tags : String := "refs/tags/"

def findCommit (r : Repository) (id : CommitId) : Option Commit :=
  r.commits.find? fun c => c.id = id

/-- The commit that a full name stands for; annotated tags are followed. -/
def Target.commitId : Target → Option CommitId
  | .commit id => some id
  | .blob _ => none
  | .tag target => Target.commitId target

def branchTip (r : Repository) (name : String) : Option CommitId :=
  (r.refs.find? (branches ++ name)).bind Target.commitId

/-- The commit at which HEAD stands, unless its branch has none yet. -/
def headCommit (r : Repository) : Option CommitId :=
  match r.head with
  | .direct id => some id
  | .symbolic name => (r.refs.find? name).bind Target.commitId

def snapshotOf (r : Repository) (id : CommitId) : Snapshot :=
  ((r.findCommit id).map (·.snapshot)).getD ∅

/-- The snapshot at which HEAD stands; it is empty before the first commit. -/
def headSnapshot (r : Repository) : Snapshot :=
  (r.headCommit.map r.snapshotOf).getD ∅

/-! ## Names of references -/

def headName : String := "HEAD"

def hasRef (r : Repository) (name : String) : Bool :=
  name == headName || (r.refs.find? name).isSome

/-- The full names for which a short name may stand, in the order in which they are tried. -/
def expansions (name : String) : List String :=
  [name, "refs/" ++ name, tags ++ name, branches ++ name]

/-- What is left of a name after a beginning. -/
def withoutStart (start name : String) : Option String :=
  if start.toList.isPrefixOf name.toList then
    some (String.ofList (name.toList.drop start.length))
  else none

/-- The shortest name for which no other reference comes first. -/
def shortName (r : Repository) (name : String) : String :=
  -- of the full names that are tried, `count` come before the one that is meant
  let isFree (count : Nat) (short : String) : Bool :=
    ((expansions short).take count).all fun full => full == name || !r.hasRef full
  let asBranch := (withoutStart branches name).filter (isFree 3)
  let asTag := (withoutStart tags name).filter (isFree 2)
  let asRef := (withoutStart "refs/" name).filter (isFree 1)
  (asBranch.or (asTag.or asRef)).getD name

def currentHead (r : Repository) : Head :=
  match r.head with
  | .direct id => .detached id
  | .symbolic name => .branch (r.shortName name)

/-! ## Content -/

def Target.contents : Target → List Bytes
  | .commit _ => []
  | .blob content => [content]
  | .tag target => Target.contents target

def contents (r : Repository) : List Bytes :=
  ((r.commits.map (·.snapshot) ++ [r.index]).flatMap fun s =>
      s.bindings.filterMap fun (_, e) => e.blobContent) ++
    r.refs.bindings.flatMap fun (_, t) => Target.contents t

def findContent (r : Repository) (id : BlobId) : Option Bytes :=
  r.contents.find? fun content => BlobId.ofContent content = id

theorem currentHead_direct {r : Repository} {id : CommitId} (h : r.head = .direct id) :
    r.currentHead = .detached id := by
  simp [currentHead, h]

end Repository

end LintDelta
