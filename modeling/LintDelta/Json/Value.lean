import LintDelta.Number.Binary64

/-!
# JSON values

A JSON value, with the members of an object in the order in which they are written. Numbers are
exact integers, or doubles where the text has a fraction or an exponent, or leaves 64 bits.
-/

namespace LintDelta

inductive Json where
  | null
  | bool (b : Bool)
  | integer (n : Int)
  | float (x : Binary64)
  | text (s : String)
  | list (items : List Json)
  | object (members : List (String × Json))

namespace Json

/-- What a reader came upon, as a message names it. -/
inductive Found where
  | null
  | bool (b : Bool)
  | integer (n : Int)
  | float (x : Binary64)
  | text (s : String)
  | list
  | object
  /-- A bare variant name where the variant carries fields. -/
  | bareVariant
  deriving DecidableEq, Repr

def found : Json → Found
  | null => .null
  | bool b => .bool b
  | integer n => .integer n
  | float x => .float x
  | text s => .text s
  | list _ => .list
  | object _ => .object

end Json

end LintDelta
