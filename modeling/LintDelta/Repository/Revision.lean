import LintDelta.Repository.Basic

/-!
# Revisions

A revision names a commit: by its id or the beginning of it, by a reference, or by HEAD, followed by
steps to ancestors and parents. The steps are read from left to right.

Main statements: no generations back, an ancestor is the commit itself.
-/

namespace LintDelta.Repository

/-! ## Reading -/

/-- A step from what was named so far. -/
inductive Step where
  /-- The first-parent ancestor so many generations back. -/
  | ancestor (generations : Nat)
  /-- The parent with this number, counted from one. -/
  | parent (number : Nat)
  /-- The commit behind an annotated tag, or the commit itself. -/
  | toCommit
  | throughTags
  | toTag
  | anything
  deriving DecidableEq, Repr

structure Revision where
  name : String
  steps : List Step
  deriving DecidableEq, Repr

namespace Revision

def decimal (cs : List Char) : Nat :=
  cs.foldl (fun n c => 10 * n + (c.toNat - 48)) 0

def isDigit (c : Char) : Bool := '0' ≤ c && c ≤ '9'

/-- The step that stands in braces after `^`. -/
def braced : List Char → Option Step
  | [] => some .throughTags
  | cs =>
    match String.ofList cs with
    | "commit" => some .toCommit
    | "tag" => some .toTag
    | "object" => some .anything
    | _ => none

/-- The steps after a name; `none` if they lead to no commit or make no sense. -/
def stepsFrom : Nat → List Char → Option (List Step)
  | _, [] => some []
  | 0, _ => none
  | fuel + 1, '~' :: rest =>
    let digits := rest.takeWhile isDigit
    let n := if digits.isEmpty then 1 else decimal digits
    (stepsFrom fuel (rest.dropWhile isDigit)).map (.ancestor n :: ·)
  | fuel + 1, '^' :: '{' :: rest => do
    let step ← braced (rest.takeWhile (· != '}'))
    match rest.dropWhile (· != '}') with
    | _ :: rest => return step :: (← stepsFrom fuel rest)
    | [] => none
  -- the number of the parent is one if it is not given, and `^0` is no parent
  | fuel + 1, '^' :: rest =>
    let digits := rest.takeWhile isDigit
    let n := if digits.isEmpty then 1 else decimal digits
    (stepsFrom fuel (rest.dropWhile isDigit)).map ((if n = 0 then .toCommit else .parent n) :: ·)
  | _, _ => none

def endsName (c : Char) : Bool := c == '~' || c == '^' || c == ':' || c == '@'

/-- Reads a revision; `@` alone stands for HEAD. -/
def parse (s : String) : Option Revision := do
  let cs := s.toList
  let (name, rest) := match cs with
    | '@' :: rest => (headName.toList, rest)
    | cs => (cs.takeWhile fun c => !endsName c, cs.dropWhile fun c => !endsName c)
  if name.isEmpty then none
  return ⟨String.ofList name, ← stepsFrom rest.length rest⟩

end Revision

/-! ## Looking up -/

def isHex (s : String) : Bool :=
  s.toList.all fun c => Revision.isDigit c || ('a' ≤ c.toLower && c.toLower ≤ 'f')

def idLength : Nat := 40

def shortestId : Nat := 4

/-- The commit whose id begins with hexadecimal digits, if there is just one. -/
def withStart (r : Repository) (digits : String) : Option Target :=
  let small := digits.toLower
  match r.commits.filter fun c => small.toList.isPrefixOf c.id.text.toList with
  | [c] => some (.commit c.id)
  | _ => none

def byId (r : Repository) (name : String) : Option Target :=
  if isHex name && shortestId ≤ name.length && name.length ≤ idLength then r.withStart name else none

/-- What a full or short name of a reference names. -/
def byRef (r : Repository) (name : String) : Option Target :=
  if name == headName then r.headCommit.map .commit
  else (expansions name).findSome? r.refs.find?

/-- What a name stands for. A full id goes before a reference of that name, which goes before an
abbreviated id. -/
def named (r : Repository) (name : String) : Option Target :=
  if name.length = idLength then (r.byId name).or (r.byRef name)
  else (r.byRef name).or (r.byId name)

def ancestor (r : Repository) : Nat → CommitId → Option CommitId
  | 0, id => some id
  | n + 1, id => do
    let c ← r.findCommit id
    r.ancestor n (← c.parents.head?)

/-- Takes a step. If `peeling`, parents and ancestors of an annotated tag are those of its commit;
otherwise it has none. -/
def take (r : Repository) (peeling : Bool) (target : Target) : Step → Option Target
  | .toCommit => (Target.commitId target).map .commit
  | .anything => some target
  | .throughTags => some (strip target)
  | .toTag =>
    match target with
    | .tag _ => some target
    | _ => none
  | .ancestor n => do return .commit (← r.ancestor n (← start))
  | .parent n => do
    let c ← r.findCommit (← start)
    return .commit (← c.parents[n - 1]?)
where
  strip : Target → Target
    | .tag target => strip target
    | other => other
  start : Option CommitId :=
    match target with
    | .commit id => some id
    | _ => if peeling then Target.commitId target else none

def resolve (r : Repository) (peeling : Bool) (spec : String) : Option CommitId := do
  let revision ← Revision.parse spec
  let target ← revision.steps.foldlM (r.take peeling) (← r.named revision.name)
  let id ← Target.commitId target
  return (← r.findCommit id).id

theorem ancestor_zero (r : Repository) (id : CommitId) : r.ancestor 0 id = some id := by
  rw [ancestor]

end LintDelta.Repository
