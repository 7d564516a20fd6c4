import LintDelta.Session
import LintDelta.Text.Blank

/-!
# Log filters

Which notices are shown. A filter is a list of directives, separated by commas: a level, which holds
for every part of the program; the beginning of a part's name, which shows all that it says; or both,
joined by `=`. The longest name that fits a part decides about it.

Main statements: without directives only errors are shown.
-/

namespace LintDelta.CommandLine

/-- What is shown of the parts whose name begins with `target`. -/
structure Directive where
  target : String
  /-- How many levels are shown, from the most important one on. -/
  rank : Nat
  deriving DecidableEq, Repr

structure LogFilter where
  directives : List Directive
  deriving DecidableEq, Repr

def finestRank : Nat := 5

/-- The number of levels that a word stands for. -/
def rankOf? (word : String) : Option Nat :=
  match word.toLower with
  | "off" | "0" => some 0
  | "error" | "1" => some 1
  | "warn" | "2" => some 2
  | "info" | "3" => some 3
  | "debug" | "4" => some 4
  | "trace" | "5" => some finestRank
  | _ => none

namespace Directive

def isNameChar (c : Char) : Bool := c.isAlphanum || c == '_' || c == ':' || c == '-'

def parse (s : String) : Option Directive :=
  let isName (cs : List Char) : Bool := !cs.isEmpty && cs.all isNameChar
  -- a level where a name belongs stands for every part
  let target (cs : List Char) : String :=
    if (rankOf? (String.ofList cs)).isSome then "" else String.ofList cs
  match rankOf? s with
  | some rank => some ⟨"", rank⟩
  | none =>
    match Text.cutAt '=' s.toList with
    | none => if isName s.toList then some ⟨s, finestRank⟩ else none
    | some (name, level) =>
      if !isName name then none
      else if level.isEmpty then some ⟨target name, finestRank⟩
      else (rankOf? (String.ofList level)).map (⟨target name, ·⟩)

end Directive

namespace LogFilter

def upTo (level : Level) : LogFilter := ⟨[⟨"", level.rank⟩]⟩

/-- Reads a filter; one wrong directive spoils it. -/
def parse (s : String) : Option LogFilter :=
  let parts := ((Text.pieces (· == ',') s.toList).filter fun p => !p.isEmpty).map String.ofList
  if parts.isEmpty then some (upTo .error)
  else (parts.mapM Directive.parse).map LogFilter.mk

/-- The filter of the environment, or else the one that the command line asks for. -/
def choose (setting : Option String) (verbose : Bool) : LogFilter :=
  (setting.bind parse).getD (upTo (if verbose then .debug else .warn))

/-- How many levels are shown of a part: the longest fitting name decides, and of two directives
with one name the later. -/
def rankFor (f : LogFilter) (part : String) : Nat :=
  let fitting := f.directives.filter fun d => d.target.toList.isPrefixOf part.toList
  (fitting.foldl (fun best d =>
    match best with
    | none => some d
    | some b => if b.target.length ≤ d.target.length then some d else some b) none).elim 0 (·.rank)

def shows (f : LogFilter) (part : String) (level : Level) : Bool :=
  level.rank ≤ f.rankFor part

theorem parse_empty : parse "" = some (upTo .error) := by
  simp [parse, Text.pieces]

end LogFilter

end LintDelta.CommandLine
