import LintDelta.Contrast
import LintDelta.Report.Text

/-!
# Invocations

What a command line asks for. Words are read from left to right: options may stand anywhere, an
option takes its value from its own word or from the next one, and after `--` every word is a
revision. Asking for help or for the version counts from the moment it is read, but not after a
mistake.

Main statements: a command line without words is a mistake.
-/

namespace LintDelta.CommandLine

/-- An option that takes a value. -/
inductive Setting where
  | format
  | language
  | onFailure
  | linter
  | repo
  deriving DecidableEq, Repr

/-- What an option stands for. -/
inductive Meaning where
  | setting (s : Setting)
  | verbose
  | help
  | version
  deriving DecidableEq, Repr

def Meaning.ofLong : String → Option Meaning
  | "output-format" => some (.setting .format)
  | "language" => some (.setting .language)
  | "on-failure" => some (.setting .onFailure)
  | "linter" => some (.setting .linter)
  | "repo" => some (.setting .repo)
  | "verbose" => some .verbose
  | "help" => some .help
  | "version" => some .version
  | _ => none

def Meaning.ofShort : Char → Option Meaning
  | 'o' => some (.setting .format)
  | 'l' => some (.setting .language)
  | 'C' => some (.setting .repo)
  | 'v' => some .verbose
  | 'h' => some .help
  | 'V' => some .version
  | _ => none

/-- Why a command line asks for no contrast. -/
inductive Halt where
  | usage
  | help
  | version
  deriving DecidableEq, Repr

/-- What a command line asks for. -/
structure Invocation where
  range : List String
  format : Report.Format
  language : Option String
  policy : Policy
  overrides : List String
  /-- The directory in which the repository is looked for. -/
  repo : String
  verbose : Bool
  deriving Repr

/-! ## Reading -/

/-- How far a command line was read. -/
structure Draft where
  range : List String
  /-- An option came after the revisions, so that no more may follow. -/
  rangeClosed : Bool
  /-- Every further word is a revision. -/
  onlyRange : Bool
  /-- The option whose value comes next. -/
  awaiting : Option Setting
  format : Option Report.Format
  language : Option String
  policy : Option Policy
  overrides : List String
  repo : Option String
  verbose : Bool

namespace Draft

def start : Draft := ⟨[], false, false, none, none, none, none, [], none, false⟩

/-- The value for an option that may be given once. -/
def once {α : Type} (old : Option α) (new : Option α) : Except Halt (Option α) :=
  match old, new with
  | none, some x => .ok (some x)
  | _, _ => .error .usage

def policyOf? (s : String) : Option Policy :=
  Policy.all.find? fun p => p.label == s

def assign (d : Draft) (setting : Setting) (value : String) : Except Halt Draft := do
  let d := { d with awaiting := none }
  match setting with
  | .format => return { d with format := ← once d.format (Report.Format.byName? value) }
  | .language => return { d with language := ← once d.language (some value) }
  | .onFailure => return { d with policy := ← once d.policy (policyOf? value) }
  | .repo => return { d with repo := ← once d.repo (some value) }
  | .linter => return { d with overrides := d.overrides ++ [value] }

/-- Adds a revision; there are at most two, side by side. -/
def addRevision (d : Draft) (word : String) : Except Halt Draft :=
  if d.rangeClosed || d.range.length = 2 then .error .usage
  else .ok { d with range := d.range ++ [word] }

/-- An option separates the revisions before it from those after it. -/
def close (d : Draft) : Draft := { d with rangeClosed := !d.range.isEmpty }

def setVerbose (d : Draft) : Except Halt Draft :=
  if d.verbose then .error .usage else .ok { d with verbose := true }

/-- Reads a long option, with the value that its word gives it. -/
def long (d : Draft) (name : String) (value : Option String) : Except Halt Draft :=
  match Meaning.ofLong name, value with
  | some (.setting s), some v => d.assign s v
  | some (.setting s), none => .ok { d with awaiting := some s }
  | some .verbose, none => d.setVerbose
  | some .help, none => .error .help
  | some .version, none => .error .version
  | _, _ => .error .usage

/-- Reads a cluster of short options; the first that takes a value takes the rest of the word. -/
def short (d : Draft) : List Char → Except Halt Draft
  | [] => .ok d
  | c :: rest =>
    match Meaning.ofShort c with
    | some (.setting s) =>
      match rest with
      | [] => .ok { d with awaiting := some s }
      | '=' :: value => d.assign s (String.ofList value)
      | value => d.assign s (String.ofList value)
    | some .verbose => do (← d.setVerbose).short rest
    | some .help => .error .help
    | some .version => .error .version
    | none => .error .usage

def read (d : Draft) (word : String) : Except Halt Draft :=
  let cs := word.toList
  match d.awaiting with
  | some s =>
    match cs with
    -- a lone dash is a value, any other word with a dash is an option
    | ['-'] => d.assign s word
    | '-' :: _ => .error .usage
    | _ => d.assign s word
  | none =>
    if d.onlyRange then d.addRevision word
    else match cs with
      | ['-', '-'] => .ok { d with onlyRange := true }
      | '-' :: '-' :: rest =>
        match Text.cutAt '=' rest with
        | some (name, value) => d.close.long (String.ofList name) (some (String.ofList value))
        | none => d.close.long (String.ofList rest) none
      | '-' :: c :: rest => d.close.short (c :: rest)
      | _ => d.addRevision word

def finish (d : Draft) : Except Halt Invocation :=
  if d.awaiting.isSome || d.range.isEmpty then .error .usage
  else .ok {
    range := d.range
    format := d.format.getD .text
    language := d.language
    policy := d.policy.getD .degrade
    overrides := d.overrides
    repo := d.repo.getD "."
    verbose := d.verbose }

end Draft

namespace Invocation

def parse (words : List String) : Except Halt Invocation := do
  (← words.foldlM Draft.read Draft.start).finish

/-- The choices of a contrast, or what is wrong with them. -/
def options (i : Invocation) : Except String (Options Adapter) := do
  let routing ← (Routing.standard.overrideAll i.overrides).mapError Failure.message
  let language ← i.language.mapM Language.parse
  return ⟨language, routing, i.policy⟩

theorem parse_nil : parse [] = .error .usage := rfl

end Invocation

end LintDelta.CommandLine
