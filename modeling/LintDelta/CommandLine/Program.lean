import LintDelta.CommandLine.Help
import LintDelta.CommandLine.Invocation
import LintDelta.CommandLine.LogFilter

/-!
# The program

From the words of a command line to an exit code and what is printed. The options are checked before
a repository is looked for, and nothing is printed of a contrast that stops.

Main statements: a mistake on the command line leaves the world as it is.
-/

namespace LintDelta.CommandLine

/-- What the program finds around it. -/
structure Host (σ : Type) where
  /-- The services of the repository around a directory. -/
  discover : String → Except Failure (VersionControl σ)
  start : Command → List TempFile → σ → Except String Outcome
  temp : TempDirectory
  /-- The log filter that the environment asks for. -/
  logFilter : Option String
  /-- What the environment says about colors where there is no terminal. -/
  color : Option String
  /-- The names by which log filters know the parts of the program. -/
  partName : Origin → String

inductive Ending where
  | usage
  | help
  | version
  | report (text : String)
  | error (message : String)
  /-- A count left the range of machine integers, or an id could not be abbreviated. -/
  | crash
  deriving DecidableEq, Repr

namespace Ending

def exitCode : Ending → Nat
  | help | version | report _ => 0
  | error _ => 1
  | usage => 2
  | crash => 101

def output : Ending → String
  | help => helpText
  | version => versionText
  | report text => text
  | _ => ""

def complaint : Ending → String
  | error message => "Error: " ++ message ++ "\n"
  | usage => usageText
  | crash => "internal error\n"
  | _ => ""

def ofHalt : Halt → Ending
  | .usage => usage
  | .help => help
  | .version => version

end Ending

/-- A failure with its cause, which only a failure to read or write has. -/
def chain : Failure → String
  | .io m => Failure.message (.io m) ++ ": " ++ m
  | e => e.message

namespace Host

variable {σ : Type}

def toolbox (host : Host σ) (verbose : Bool) : Toolbox σ where
  start := host.start
  temp := host.temp
  shows origin := (LogFilter.choose host.logFilter verbose).shows (host.partName origin)

def theme (host : Host σ) : Theme :=
  if host.color.all (· == "0") then .plain else .colored

end Host

namespace Invocation

variable {σ : Type}

def contrast (i : Invocation) (host : Host σ) (options : Options Adapter) : Run σ Ending := do
  let box := host.toolbox i.verbose
  box.notify .program .debug (return .discovering i.repo i.range)
  match host.discover i.repo with
  | .error e => return .error (chain e)
  | .ok vcs =>
    let bench : Bench σ := ⟨vcs, box⟩
    match ← (bench.contrastRange (options.equip box) i.range).attempt with
    | .error e =>
      return .error ("failed to contrast '" ++ String.intercalate " " i.range ++ "': " ++ chain e)
    | .ok report =>
      match report.render host.theme i.format with
      | .ok text => return .report text
      | .error .notText => return .error RenderError.notText.message
      | .error _ => return .crash

def perform (i : Invocation) (host : Host σ) : Run σ Ending :=
  match i.options with
  | .error message => return .error message
  | .ok options => i.contrast host options

end Invocation

/-- Runs the program on the words of a command line. -/
def run {σ : Type} (host : Host σ) (words : List String) (world : σ) : Ending × Session σ :=
  match Invocation.parse words with
  | .error halt => (Ending.ofHalt halt, Session.start world)
  | .ok i =>
    match (i.perform host).run (Session.start world) with
    | (.ok ending, s) => (ending, s)
    | (.error _, s) => (.crash, s)

theorem run_of_halt {σ : Type} {host : Host σ} {words : List String} {world : σ} {halt : Halt}
    (h : Invocation.parse words = .error halt) :
    run host words world = (Ending.ofHalt halt, Session.start world) := by
  simp [run, h]

end LintDelta.CommandLine
