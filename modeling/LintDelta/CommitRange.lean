import LintDelta.Failure

/-!
# Commit ranges

A range names two revisions: as `from..to`, as two words, or as `from` alone, which reaches to HEAD.
An empty side of `..` stands for HEAD.
-/

namespace LintDelta.CommitRange

/-- Cuts at the first `..`. -/
def cutDots : List Char → Option (List Char × List Char)
  | '.' :: '.' :: rest => some ([], rest)
  | c :: rest => (cutDots rest).map fun (before, after) => (c :: before, after)
  | [] => none

def hasDots (cs : List Char) : Bool := (cutDots cs).isSome

def hasThreeDots : List Char → Bool
  | '.' :: '.' :: '.' :: _ => true
  | _ :: rest => hasThreeDots rest
  | [] => false

def head : String := "HEAD"

def side (cs : List Char) : String :=
  if cs.isEmpty then head else String.ofList cs

def invalid (range : List String) : Failure :=
  .configuration ("invalid commit range '" ++ String.intercalate " " range ++
    "': use 'from..to', 'from to' or 'from'")

/-- The two revisions of a range. -/
def split (range : List String) : Except Failure (String × String) :=
  match range with
  | [single] =>
    let cs := single.toList
    if hasThreeDots cs then .error (invalid range)
    else match cutDots cs with
      | some (before, after) =>
        if (before.isEmpty && after.isEmpty) || hasDots after then .error (invalid range)
        else .ok (side before, side after)
      | none => if cs.isEmpty then .error (invalid range) else .ok (single, head)
  | [a, b] =>
    if a.isEmpty || b.isEmpty || hasDots a.toList || hasDots b.toList then .error (invalid range)
    else .ok (a, b)
  | _ => .error (invalid range)

end LintDelta.CommitRange
