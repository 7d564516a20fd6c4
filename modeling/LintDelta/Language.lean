import LintDelta.Path
import LintDelta.Text.Lowercase

/-!
# Languages

The programming languages to which a contrast can be confined, each with the extensions of its
files.
-/

namespace LintDelta

inductive Language where
  | python
  | java
  | kotlin
  | c
  | cpp
  | haskell
  deriving DecidableEq, Repr

namespace Language

def all : List Language := [python, java, kotlin, c, cpp, haskell]

/-- The extensions of a language; sources of C and C++ are mixed freely and share theirs. -/
def extensions : Language → List String
  | python => [".py"]
  | java => [".java"]
  | kotlin => [".kt", ".kts"]
  | c | cpp => [".c", ".cpp", ".h", ".hpp"]
  | haskell => [".hs"]

def name : Language → String
  | python => "Python"
  | java => "Java"
  | kotlin => "Kotlin"
  | c => "C"
  | cpp => "C++"
  | haskell => "Haskell"

def tag : Language → String
  | cpp => "Cpp"
  | l => l.name

def covers (l : Language) (p : Path) : Bool :=
  match p.extension with
  | some ext => l.extensions.contains ext
  | none => false

/-- The language of a name or abbreviation, in any case. -/
def parse? (s : String) : Option Language :=
  match Text.lowercase s with
  | "python" | "py" => some python
  | "java" => some java
  | "kotlin" | "kt" => some kotlin
  | "c" => some c
  | "c++" | "cpp" => some cpp
  | "haskell" | "hs" => some haskell
  | _ => none

def parse (s : String) : Except String Language :=
  match parse? s with
  | some l => .ok l
  | none => .error ("Unknown language: " ++ s)

end Language

end LintDelta
