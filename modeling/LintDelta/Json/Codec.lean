import LintDelta.Json.Shape
import LintDelta.Json.Printer

/-!
# Stored records

A `Codec` ties a type of the library to the shape in which its values are stored. Writing may fail,
since a path that is not text has no stored form; reading fails where the text has another shape.

Main statements: a value is written exactly if it has a stored form.
-/

namespace LintDelta.Json

/-- How values of a type are stored. -/
structure Codec (α : Type) where
  shape : Shape
  /-- The stored form of a value, if it has one. -/
  toVal : α → Option shape.Val
  /-- The value of a stored form. -/
  ofVal : shape.Val → α

namespace Codec

variable {α : Type}

def readText (codec : Codec α) (text : String) : Except Error α := do
  return codec.ofVal (← codec.shape.readText text)

def write (codec : Codec α) (x : α) : Option Json :=
  (codec.toVal x).map codec.shape.write

/-- Writes a value without white space, if it has a stored form. -/
def writeText (codec : Codec α) (x : α) : Option String :=
  (codec.write x).map compact

theorem write_eq_none_iff {codec : Codec α} {x : α} : codec.write x = none ↔ codec.toVal x = none := by
  simp [write]

end Codec

end LintDelta.Json
