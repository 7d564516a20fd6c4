import LintDelta.Repository.Similarity
import LintDelta.Repository.Snapshot

/-!
# Differences between snapshots

How one snapshot becomes another, as a list of changes in the order in which a walk finds them. A
walk visits all entries of a directory before those of its subdirectories. Where renames are
tracked, an added and a deleted file that are equal or similar make one change, which is listed
after the modifications; where copies are tracked too, a modified file can lend its old content to
an added one.

Main statements: a copy only adds a file, and a rename is one modification with two paths.
-/

namespace LintDelta

open Text (Bytes)

/-- What a difference is about. -/
inductive Node where
  | entry (e : Entry)
  | directory
  deriving DecidableEq, Repr

namespace Node

def fileContent : Node → Option Bytes
  | entry e => e.fileContent
  | directory => none

def fileBlob (n : Node) : Option BlobId :=
  n.fileContent.map BlobId.ofContent

theorem fileBlob_entry (e : Entry) : (entry e).fileBlob = e.fileBlob := rfl

end Node

inductive TreeChange where
  | addition (path : Path) (node : Node)
  | deletion (path : Path) (node : Node)
  | modification (path : Path) (before after : Node)
  /-- Something that comes from another path; of a copy the source stays. -/
  | derivation (source : Path) (before : Node) (path : Path) (after : Node) (copy : Bool)
  deriving DecidableEq, Repr

inductive Tracking where
  | off
  | renames
  | copies
  deriving DecidableEq, Repr

/-- The tracking that a setting asks for: copies, or a truth value; renames are looked for if nothing
is set. -/
def Tracking.ofSetting : Option String → Tracking
  | none => .renames
  | some s =>
    match s.toLower with
    | "copies" | "copy" => .copies
    | "false" | "no" | "off" | "0" | "" => .off
    | _ => .renames

namespace TreeChange

/-- The path of a change; the new one of a derivation. -/
def path : TreeChange → Path
  | addition path _ => path
  | deletion path _ => path
  | modification path _ _ => path
  | derivation _ _ path _ _ => path

/-- What a difference means for files. The source of a copy stays, so that a copy only adds a file;
directories, links, submodules and switches between them and files mean nothing. -/
def record : TreeChange → Option Change
  | addition path node => node.fileBlob.map (.added path ·)
  | deletion path node => node.fileBlob.map (.deleted path ·)
  | modification path before after => do
    return .modified path (← before.fileBlob) path (← after.fileBlob) false
  | derivation source before path after copy => do
    let pre ← before.fileBlob
    let post ← after.fileBlob
    return if copy then .added path post else .modified source pre path post true

end TreeChange

namespace TreeDiff

/-! ## The walk -/

/-- The components of a path, every directory with its slash. -/
def steps (p : Path) : List Bytes :=
  let parts := Path.splitSlash p.bytes
  parts.dropLast.map (· ++ [Path.slash]) ++ parts.getLast?.toList

/-- The order of a walk: by depth, then step by step. -/
def walkOrder (a b : Path) : Ordering :=
  (compare (steps a).length (steps b).length).then (compare (steps a) (steps b))

/-- What stands at a path of a snapshot. -/
def nodeAt (s : Snapshot) (p : Path) : Option Node :=
  match s.find? p with
  | some e => some (.entry e)
  | none => if s.keys.any (·.isBelow p) then some .directory else none

/-- The differences at one path. A directory is not modified: it is there or not. -/
def differencesAt (old new : Snapshot) (p : Path) : List TreeChange :=
  match nodeAt old p, nodeAt new p with
  | none, none => []
  | some a, none => [.deletion p a]
  | none, some b => [.addition p b]
  | some .directory, some .directory => []
  | some (.entry a), some (.entry b) =>
    if a = b then [] else [.modification p (.entry a) (.entry b)]
  | some a, some b => [.deletion p a, .addition p b]

def paths (s : Snapshot) : List Path :=
  s.keys.flatMap fun p => p.directories ++ [p]

def walk (old new : Snapshot) : List Path :=
  (OrderedMap.distinct (paths old ++ paths new)).mergeSort fun a b => (walkOrder a b).isLE

def plain (old new : Snapshot) : List TreeChange :=
  (walk old new).flatMap (differencesAt old new)

/-! ## Derivations -/

/-- A file that may be an end of a derivation. -/
structure End where
  path : Path
  node : Node
  content : Bytes
  deriving DecidableEq, Repr

def End.of (path : Path) (node : Node) : Option End :=
  node.fileContent.map fun content => ⟨path, node, content⟩

/-- Ends are taken up by the id of their content, then by path. -/
def End.order (a b : End) : Ordering :=
  (compare (BlobId.ofContent a.content).text (BlobId.ofContent b.content).text).then
    (compare a.path b.path)

def sortEnds (ends : List End) : List End :=
  ends.mergeSort fun a b => (End.order a b).isLE

def additions (changes : List TreeChange) : List End :=
  sortEnds (changes.filterMap fun
    | .addition path node => End.of path node
    | _ => none)

def deletions (changes : List TreeChange) : List End :=
  sortEnds (changes.filterMap fun
    | .deletion path node => End.of path node
    | _ => none)

/-- The old states of the files that stay files. -/
def modified (changes : List TreeChange) : List End :=
  sortEnds (changes.filterMap fun
    | .modification path before after => after.fileContent.bind fun _ => End.of path before
    | _ => none)

abbrev Pairing := End × End

/-- Gives each target, one after another, the first source that fits it. If `once`, a source serves
one target only. -/
def pair (fits : Bytes → Bytes → Bool) (once : Bool) (sources : List End) : List End → List Pairing
  | [] => []
  | target :: targets =>
    match sources.find? fun s => fits s.content target.content with
    | none => pair fits once sources targets
    | some s => (s, target) :: pair fits once (if once then sources.erase s else sources) targets

/-- Pairs equal files first and similar ones after them. -/
def pairAll (once : Bool) (sources targets : List End) : List Pairing :=
  let equal := pair (· == ·) once sources targets
  let left := targets.filter fun t => !(equal.map (·.2)).contains t
  let free := if once then sources.filter fun s => !(equal.map (·.1)).contains s else sources
  equal ++ pair Similarity.isSimilar once free left

def derivationOf (copy : Bool) (p : Pairing) : TreeChange :=
  .derivation p.1.path p.1.node p.2.path p.2.node copy

/-- Whether a change became a part of one of the pairings. -/
def isPaired (pairings : List Pairing) : TreeChange → Bool
  | .addition path _ => pairings.any fun p => p.2.path == path
  | .deletion path _ | .modification path _ _ => pairings.any fun p => p.1.path == path
  | .derivation .. => false

def isModification : TreeChange → Bool
  | .modification .. => true
  | _ => false

def sortByPath (changes : List TreeChange) : List TreeChange :=
  changes.mergeSort fun a b => (compare a.path b.path).isLE

/-- The differences between two snapshots. -/
def changes (tracking : Tracking) (old new : Snapshot) : List TreeChange :=
  let all := plain old new
  match tracking with
  | .off => all
  | .renames =>
    let renames := pairAll true (deletions all) (additions all)
    -- a rename stands behind the modifications, wherever its paths are
    let (modifications, others) := all.partition isModification
    modifications ++ renames.map (derivationOf false) ++
      sortByPath (others.filter fun c => !isPaired renames c)
  | .copies =>
    let renames := pairAll true (deletions all) (additions all)
    -- what is no rename may still be a copy of a file that was modified
    let left := (additions all).filter fun t => !(renames.map (·.2)).contains t
    let copies := pairAll false (modified all) left
    renames.map (derivationOf false) ++ copies.map (derivationOf true) ++
      sortByPath (all.filter fun c => !isPaired renames c && !isPaired copies c)

/-- What happened to the files between two snapshots. -/
def records (tracking : Tracking) (old new : Snapshot) : List Change :=
  (changes tracking old new).filterMap TreeChange.record

end TreeDiff

/-! ## Laws -/

namespace TreeChange

theorem record_copy {source path : Path} {before after : Node} {pre post : BlobId}
    (hpre : before.fileBlob = some pre) (hpost : after.fileBlob = some post) :
    (derivation source before path after true).record = some (.added path post) := by
  simp [record, hpre, hpost]

theorem record_rename {source path : Path} {before after : Node} {pre post : BlobId}
    (hpre : before.fileBlob = some pre) (hpost : after.fileBlob = some post) :
    (derivation source before path after false).record = some (.modified source pre path post true) := by
  simp [record, hpre, hpost]

end TreeChange

end LintDelta
