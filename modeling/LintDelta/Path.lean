import LintDelta.Text.Utf8

/-!
# Paths

A path is a sequence of bytes, with `/` between its components. It need not be text: `text?` is its
text if there is one, and `display` shows any path.

Main statements: the order of paths is total.
-/

namespace LintDelta

open Text (Bytes)

structure Path where
  bytes : Bytes
  deriving DecidableEq, Repr

namespace Path

instance : Ord Path where
  compare a b := compare a.bytes b.bytes

def slash : UInt8 := 0x2F

def dot : UInt8 := 0x2E

def ofString (s : String) : Path := ⟨Text.encode s⟩

def text? (p : Path) : Option String := Text.decode? p.bytes

def display (p : Path) : String := Text.decodeLossy p.bytes

/-- The stretches between slashes, empty ones included. -/
def splitSlash : Bytes → List Bytes
  | [] => [[]]
  | b :: bs =>
    if b = slash then [] :: splitSlash bs
    else match splitSlash bs with
      | [] => [[b]]
      | part :: parts => (b :: part) :: parts

/-- The components that name something: neither empty nor the current directory. -/
def components (p : Path) : List Bytes :=
  (splitSlash p.bytes).filter fun part => part ≠ [] ∧ part ≠ [dot]

/-- The last component, unless it climbs to the parent directory. -/
def fileName (p : Path) : Option Bytes :=
  match p.components.getLast? with
  | some name => if name = [dot, dot] then none else some name
  | none => none

def cutLastDot : Bytes → Option (Bytes × Bytes)
  | [] => none
  | b :: bs =>
    match cutLastDot bs with
    | some (stem, ext) => some (b :: stem, ext)
    | none => if b = dot then some ([], bs) else none

/-- The extension of a file with its dot, if it is text: what follows the last dot of the name,
where a dot that starts the name does not count. -/
def extension (p : Path) : Option String := do
  let (stem, ext) ← cutLastDot (← p.fileName)
  if stem.isEmpty then none
  return "." ++ (← Text.decode? ext)

def isAbsolute (p : Path) : Bool :=
  p.bytes.head? == some slash

/-- A path below a directory; an absolute path stands for itself. -/
def join (directory p : Path) : Path :=
  if p.isAbsolute then p
  else if directory.bytes.isEmpty || directory.bytes.getLast? == some slash then
    ⟨directory.bytes ++ p.bytes⟩
  else ⟨directory.bytes ++ slash :: p.bytes⟩

def isBelow (p directory : Path) : Bool :=
  (directory.bytes ++ [slash]).isPrefixOf p.bytes

/-- The directories above a path, from the top. -/
def directories (p : Path) : List Path :=
  let parts := splitSlash p.bytes
  (List.range (parts.length - 1)).map fun n => ⟨[slash].intercalate (parts.take (n + 1))⟩

/-- Drops empty components and single dots, and lets `..` cancel the component before it. -/
def settle (parts : List Bytes) : List Bytes :=
  (parts.foldl (fun kept part =>
    if part = [] ∨ part = [dot] then kept
    else if part = [dot, dot] then kept.drop 1
    else part :: kept) []).reverse

def settled (p : Path) : Path :=
  ⟨((settle (splitSlash p.bytes)).flatMap (slash :: ·)).drop 1⟩

/-- The absolute path that a path stands for in a current directory. -/
def absolute (p current : Path) : Path :=
  ⟨(settle (splitSlash (current.join p).bytes)).flatMap (slash :: ·)⟩

/-! ## Laws -/

instance : Std.TransOrd Path :=
  inferInstanceAs (Std.TransCmp (compareOn bytes))

instance : Std.LawfulEqOrd Path where
  compare_self := Std.ReflCmp.compare_self
  eq_of_compare {a b} h := by
    cases a; cases b; congr
    exact Std.LawfulEqOrd.eq_of_compare h

end Path

end LintDelta
