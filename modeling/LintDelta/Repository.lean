import LintDelta.CommitRange
import LintDelta.Repository.Checkout
import LintDelta.Text.Quoted
import LintDelta.VersionControl

/-!
# The services of a repository

What a repository answers as a version control system, and how it is found from a directory.

Main statements: a question leaves the repository as it is, and so does a checkout that fails.
-/

namespace LintDelta

open Text (Bytes)

namespace Repository

/-! ## Commits and blobs -/

def resolveRevision (r : Repository) (name : String) : Except Failure CommitId :=
  match r.resolve false name with
  | some id => .ok id
  | none => .error (.configuration ("failed to resolve '" ++ name ++ "': it names no commit"))

def resolveRange (r : Repository) (range : List String) : Except Failure (CommitId × CommitId) := do
  let (source, target) ← CommitRange.split range
  let a ← r.resolveRevision source
  return (a, ← r.resolveRevision target)

/-- An id as it is stored, if it has the form of one. -/
def objectId (text : String) : Except Failure String :=
  if isHex text && text.length = idLength then .ok text.toLower
  else .error (.git ("invalid object id '" ++ text ++ "': it is not made of 40 hexadecimal digits"))

def commitAt (r : Repository) (id : CommitId) : Except Failure Commit := do
  match r.findCommit ⟨← objectId id.text⟩ with
  | some c => return c
  | none => throw (.git ("failed to find commit " ++ id.text ++ ": there is none"))

def changes (r : Repository) (source target : CommitId) : Except Failure (List Change) := do
  let a ← r.commitAt source
  let b ← r.commitAt target
  return TreeDiff.records r.tracking a.snapshot b.snapshot

/-- The id of the directory without entries, which every repository knows. -/
def emptyTree : String := "4b825dc642cb6eb9a060e54bf8d69288fbee4904"

def readBlob (r : Repository) (blob : BlobId) : Except Failure Bytes := do
  let id ← objectId blob.text
  match r.findContent ⟨id⟩ with
  | some content => return content
  | none =>
    -- directories and commits are objects too
    if id == emptyTree || (r.findCommit ⟨id⟩).isSome then
      throw (.git ("object " ++ blob.text ++ " is not a blob"))
    else throw (.git ("failed to find object " ++ blob.text ++ ": there is none"))

/-! ## As a version control system -/

/-- A question that changes nothing. -/
def ask {α : Type} (f : Repository → Except Failure α) (r : Repository) :
    Except Failure α × Repository :=
  (f r, r)

/-- The services of a repository with this working tree. -/
def services (workdir : Path) : VersionControl Repository where
  workdir := workdir
  resolveRange range := ask (·.resolveRange range)
  changes source target := ask (·.changes source target)
  readBlob blob := ask (·.readBlob blob)
  head := ask fun r => .ok r.currentHead
  isClean := ask fun r => .ok r.clean
  checkout target r :=
    match r.checkout target with
    | .ok r' => (.ok (), r')
    | .error e => (.error e, r)

/-! ## Laws -/

theorem snd_ask (f : Repository → Except Failure α) (r : Repository) : (ask f r).2 = r := rfl

theorem checkout_error {workdir : Path} {target : Head} {r : Repository} {e : Failure}
    (h : ((services workdir).checkout target r).1 = .error e) :
    ((services workdir).checkout target r).2 = r := by
  simp only [services] at h ⊢
  split <;> simp_all

end Repository

/-! ## Finding a repository -/

/-- What is found at a directory of the file system. -/
inductive Site where
  | plain (files : Snapshot)
  | bare (repository : Repository)
  | tree (repository : Repository)
  deriving Repr

namespace Site

/-- The directories in which a repository keeps its own files. -/
def ownDirectories : List String :=
  ["hooks", "info", "objects", "objects/info", "objects/pack", "refs", "refs/heads", "refs/tags"]

def files : Site → Snapshot
  | plain files => files
  | bare _ => ∅
  | tree r => r.worktree

/-- The directories of a site besides those of its files, from its root. -/
def extraDirectories : Site → List Path
  | plain _ => []
  | bare _ => ownDirectories.map Path.ofString
  | tree r =>
    Path.ofString ".git" :: ownDirectories.map (fun d => Path.ofString (".git/" ++ d)) ++
      r.index.bindings.filterMap fun (p, e) =>
        match e with
        | .submodule _ => some p
        | _ => none

/-- Whether there is a directory at an absolute path, given the root of the site. -/
def hasDirectory (site : Site) (root p : Path) : Bool :=
  p == root || (p.isBelow root && (site.extraDirectories.any (fun d => root.join d == p) ||
    site.files.keys.any fun f => (root.join f).isBelow p))

/-- Shows a directory above the current one, or the current one itself, from there. -/
def fromBelow (root current : Path) : Path :=
  let depth := (Path.components current).length - (Path.components root).length
  if depth = 0 then .ofString "." else .ofString (String.intercalate "/" (List.replicate depth ".."))

/-- The working tree around a directory. A relative directory gives a relative working tree. -/
def discover (site : Site) (root current directory : Path) : Except Failure Path :=
  let missing : Failure :=
    .configuration ("failed to discover git repository at '" ++ directory.display ++
      "': there is none")
  if site.hasDirectory root (directory.absolute current) then
    match site with
    | plain _ => .error missing
    | bare _ => .error (.configuration "repository has no work directory")
    | tree _ => .ok (if directory.isAbsolute then root else fromBelow root current)
  else .error missing

def inspect (workdir : Path) : String :=
  "GitRepository \x7b workdir: " ++ Text.quoted workdir.display ++ " \x7d"

end Site

end LintDelta
