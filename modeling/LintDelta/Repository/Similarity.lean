import LintDelta.Text.Utf8

/-!
# Similarity

How much of an old file survives in a new one: the bytes of the old lines that a longest common
subsequence of lines keeps, against the length of the longer file. Two files are similar if that is
at least a half. Files that are not text are similar to nothing.
-/

namespace LintDelta.Similarity

open Text (Bytes)

def newline : UInt8 := 10

/-- The lines of a file, each with its ending. -/
def lines : Bytes → List Bytes
  | [] => []
  | b :: bs =>
    if b = newline then [b] :: lines bs
    else match lines bs with
      | [] => [[b]]
      | l :: ls => (b :: l) :: ls

/-- How many lines are kept, and how many bytes they have. -/
structure Kept where
  count : Nat
  size : Nat
  deriving DecidableEq, Repr

/-- The better of two ways to keep lines. -/
def Kept.better (a b : Kept) : Kept :=
  if b.count < a.count ∨ (b.count = a.count ∧ b.size ≤ a.size) then a else b

/-- The best ways for one more old line against every end of the new lines, given those without
it. -/
def row (line : Bytes) : List Bytes → List Kept → List Kept
  | l :: ls, without :: rest =>
    let right := row line ls rest
    let next := rest.headD ⟨0, 0⟩
    -- equal lines are kept together; otherwise one of the two is left out
    let best := if line = l then ⟨next.count + 1, next.size + line.length⟩
      else without.better (right.headD ⟨0, 0⟩)
    best :: right
  | _, _ => [⟨0, 0⟩]

/-- The best way to keep old lines among the new ones. -/
def kept (old new : List Bytes) : Kept :=
  (old.foldr (fun line below => row line new below)
    (List.replicate (new.length + 1) ⟨0, 0⟩)).headD ⟨0, 0⟩

/-- How many bytes are looked at to tell text from other content. -/
def probeLength : Nat := 8000

/-- Whether content is taken for text: its beginning holds no zero byte. -/
def isText (content : Bytes) : Bool := !(content.take probeLength).contains 0

/-- Whether at least half of a file survives. -/
def isSimilar (old new : Bytes) : Bool :=
  isText old && isText new && !old.isEmpty && !new.isEmpty &&
    max old.length new.length ≤ 2 * (kept (lines old) (lines new)).size

end LintDelta.Similarity
