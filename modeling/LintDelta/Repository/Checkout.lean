import LintDelta.Failure
import LintDelta.Repository.Revision

/-!
# Switching the working tree

A switch goes from the snapshot of HEAD to another one and takes the index and the working tree
along. It leaves alone whatever both snapshots agree on, and refuses as a whole if it would lose
changes that are nowhere recorded.

Main statements: a path on which both snapshots agree keeps its entry in the index.
-/

namespace LintDelta.Repository

open Text (Bytes)

/-! ## What is changed -/

/-- Whether the working tree holds an entry of the index unchanged. The directory of a submodule may
hold anything. -/
def matchesTree (worktree : Snapshot) (path : Path) : Entry → Bool
  | .submodule _ => (worktree.find? path).isNone
  | entry => worktree.find? path == some entry

/-- Whether neither the index nor a tracked file differs from what was committed. -/
def clean (r : Repository) : Bool :=
  r.index == r.headSnapshot && r.index.bindings.all fun (p, e) => matchesTree r.worktree p e

/-! ## One path -/

/-- What a switch does at one path. -/
inductive Move where
  /-- Neither the index nor the file changes. -/
  | keep
  | write (entry : Entry)
  | delete
  deriving DecidableEq, Repr

/-- The move at a path where the index, HEAD and the target hold these entries; `none` if it would
lose a change. `safe` tells that the file is as the index says, or gone. -/
def move (safe : Bool) : (index head target : Option Entry) → Option Move
  | none, none, none => some .keep
  | none, none, some t => some (.write t)
  | none, some _, none => some .keep
  | none, some h, some t => if h = t then some .keep else none
  | some _, none, none => some .keep
  | some i, none, some t => if i = t then some .keep else none
  | some i, some h, none => if i = h ∧ safe then some .delete else none
  | some i, some h, some t =>
    if h = t ∨ i = t then some .keep
    else if i = h ∧ safe then some (.write t)
    else none

/-- Whether a path is blocked in the working tree: a directory stands there, or a file stands where
it needs a directory. -/
def blockers (worktree : Snapshot) (path : Path) : List Path :=
  worktree.keys.filter fun p => p.isBelow path || path.isBelow p

def isSafe (r : Repository) (path : Path) : Bool :=
  match r.index.find? path with
  | none => true
  | some e =>
    matchesTree r.worktree path e ||
      ((r.worktree.find? path).isNone && (blockers r.worktree path).isEmpty)

/-! ## All paths -/

/-- The moves of a switch, path by path. -/
def plan (r : Repository) (target : Snapshot) : Option (List (Path × Move)) :=
  let paths := OrderedMap.distinct (r.index.keys ++ r.headSnapshot.keys ++ target.keys)
  paths.mapM fun p => do
    return (p, ← move (r.isSafe p) (r.index.find? p) (r.headSnapshot.find? p) (target.find? p))

/-- Whether a new file would take the place of one that is not recorded. -/
def overwrites (r : Repository) (plan : List (Path × Move)) (path : Path) : Bool :=
  let untracked := (r.worktree.find? path).isSome && (r.index.find? path).isNone
  untracked || (blockers r.worktree path).any fun p => !plan.contains (p, .delete)

/-- Whether a plan loses nothing. -/
def isHarmless (r : Repository) (plan : List (Path × Move)) : Bool :=
  plan.all fun (p, m) =>
    match m with
    | .write _ => !r.overwrites plan p
    | _ => true

def applyDelete (s : Snapshot) : Path × Move → Snapshot
  | (p, .delete) => s.erase p
  | _ => s

def applyWrite (s : Snapshot) : Path × Move → Snapshot
  | (p, .write e) => s.insert p e
  | _ => s

/-- Writes a file or a link; a submodule has none. -/
def applyFile (s : Snapshot) : Path × Move → Snapshot
  | (_, .write (.submodule _)) => s
  | m => applyWrite s m

/-- Switches to a snapshot, unless changes would be lost. -/
def switchTo (r : Repository) (target : Snapshot) : Option Repository := do
  let moves ← r.plan target
  if r.isHarmless moves then
    return { r with
      index := moves.foldl applyWrite (moves.foldl applyDelete r.index)
      worktree := moves.foldl applyFile (moves.foldl applyDelete r.worktree) }
  else none

/-! ## Targets -/

def detach (r : Repository) (id : CommitId) : Option Repository := do
  return { (← r.switchTo (r.snapshotOf id)) with head := .direct id }

/-- Puts the tracked files at or below a path back from the index. -/
def restorePath (r : Repository) (name : String) : Option Repository :=
  let path := (Path.ofString name).settled
  match r.index.bindings.filter fun (p, _) => path.bytes.isEmpty || p == path || p.isBelow path with
  | [] => none
  | entries => some { r with
      worktree := entries.foldl (fun s (p, e) => applyFile s (p, .write e)) r.worktree }

/-- Whether a revision is HEAD itself, at which nothing is switched. -/
def isHead (name : String) : Bool := name == headName || name == "@"

/-- Switches to a branch of a short name; or detaches HEAD at a revision; or else puts files back. -/
def checkoutName (r : Repository) (name : String) : Option Repository :=
  match r.branchTip name with
  | some id => do
    return { (← r.switchTo (r.snapshotOf id)) with head := .symbolic (branches ++ name) }
  | none =>
    match r.resolve true name with
    | some id => if isHead name then r.switchTo r.headSnapshot else r.detach id
    | none => if name.isEmpty then none else r.restorePath name

/-- Switches the working tree, or says which command failed. -/
def checkout (r : Repository) (target : Head) : Except Failure Repository :=
  let answer (command : String) : Option Repository → Except Failure Repository
    | some r => .ok r
    | none => .error (.git ("git checkout --quiet " ++ command ++
        " failed: the target does not exist, or changes would be lost"))
  match target with
  | .branch name => answer name (r.checkoutName name)
  | .detached id => answer ("--detach " ++ id.text) ((r.resolve true id.text).bind r.detach)

/-! ## Recording in the index -/

/-- Takes the files at some paths, and their absence, into the index. -/
def stage (r : Repository) (concerns : Path → Bool) : Repository :=
  let tracked := r.index.bindings.foldl (fun s (p, e) =>
    if concerns p && !matchesTree r.worktree p e then s.erase p else s) r.index
  { r with
    index := r.worktree.bindings.foldl (fun s (p, e) =>
      if concerns p then s.insert p e else s) tracked }

theorem move_of_eq (safe : Bool) (i e : Entry) : move safe (some i) (some e) (some e) = some .keep := by
  simp [move]

end LintDelta.Repository
