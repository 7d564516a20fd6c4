import LintDelta.Records

/-!
# Reports for people

A report as text: the two commits, a section for each linted file, a section for the totals, and the
files that could not be linted. A section lists the issues whose count moved.
-/

namespace LintDelta

/-- How the parts of a text are set off. -/
structure Theme where
  heading : String → String
  improved : String → String
  worsened : String → String
  note : String → String

namespace Theme

def plain : Theme := ⟨id, id, id, id⟩

def styled (code : Nat) (s : String) : String :=
  "\x1b[" ++ toString code ++ "m" ++ s ++ "\x1b[0m"

/-- Headings are bold, improvements green, deteriorations red and notes dim. -/
def colored : Theme := ⟨styled 1, styled 32, styled 31, styled 2⟩

end Theme

inductive RenderError where
  /-- The movement of a count is not a machine integer. -/
  | overflow
  | splitCharacter
  /-- The path of a failure is not text. -/
  | notText
  deriving DecidableEq, Repr

def RenderError.message : RenderError → String
  | overflow => "too many issues"
  | splitCharacter => "commit id cannot be abbreviated"
  | notText => "path contains invalid UTF-8 characters"

namespace Report

def fileHeading : Change → String
  | .added path _ => "File " ++ path.display ++ " was added:"
  | .deleted path _ => "File " ++ path.display ++ " was deleted:"
  | .modified prePath _ postPath _ true =>
    "File " ++ prePath.display ++ " was modified and renamed to " ++ postPath.display ++ ":"
  | .modified _ _ postPath _ false => "File " ++ postPath.display ++ " was modified:"

/-- The movements that do not cancel out; there are none if one of them overflows. -/
def moved (pre post : Tally) : Option (List Tally.Movement) :=
  (Tally.compare pre post).foldrM (fun m kept => do
    return if (← m.net) = 0 then kept else m :: kept) []

/-- One movement, green if the count went down. -/
def movementLine (theme : Theme) (m : Tally.Movement) : String :=
  (if m.isImprovement then theme.improved else theme.worsened)
    (m.issue.symbol ++ " " ++ toString m.pre ++ " -> " ++ toString m.post)

/-- The lines of a section below its heading. -/
def body (theme : Theme) (pre post : Tally) : Option (List String) := do
  match ← moved pre post with
  | [] => return ["  " ++ theme.note "No change in quality detected."]
  | movements => return movements.map fun m => "  " ++ movementLine theme m

/-- The section of a file, with an empty line after it. -/
def fileSection (theme : Theme) (file : FileDiff) : Option (List String) := do
  return theme.heading (fileHeading file.change) :: (← body theme file.pre file.post) ++ [""]

def overall (theme : Theme) (r : Report) : Option (List String) := do
  return theme.heading "Overall change in quality:" :: (← body theme r.preTotal r.postTotal)

/-- The files that could not be linted, after an empty line. -/
def failureBlock (theme : Theme) (failures : List FileFailure) : List String :=
  if failures.isEmpty then []
  else
    "" :: theme.worsened (toString failures.length ++ " file(s) could not be linted:") ::
      failures.map fun f => "  " ++ f.path.display ++ ": " ++ f.error

def title (theme : Theme) (r : Report) : Option (List String) := do
  let source ← r.source.short
  return [theme.heading ("Contrasting " ++ source ++ ".." ++ (← r.target.short)), ""]

def orElse {α : Type} (e : RenderError) : Option α → Except RenderError α
  | some x => .ok x
  | none => .error e

def textLines (theme : Theme) (r : Report) : Except RenderError (List String) := do
  let title ← orElse .splitCharacter (r.title theme)
  let sections ← orElse .overflow (r.files.mapM (fileSection theme))
  let total ← orElse .overflow (r.overall theme)
  return title ++ sections.flatten ++ total ++ failureBlock theme r.failures

def text (theme : Theme) (r : Report) : Except RenderError String := do
  return String.join ((← r.textLines theme).map (· ++ "\n"))

def json (r : Report) : Except RenderError String := do
  return (← orElse .notText (StructuredReport.ofReport r).writeText) ++ "\n"

inductive Format where
  | text
  | json
  deriving DecidableEq, Repr

def Format.byName? : String → Option Format
  | "text" => some text
  | "json" => some json
  | _ => none

def render (theme : Theme) (format : Format) (r : Report) : Except RenderError String :=
  match format with
  | .text => r.text theme
  | .json => r.json

end Report

end LintDelta
