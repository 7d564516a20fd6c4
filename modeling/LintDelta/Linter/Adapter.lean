import LintDelta.Linter.Findings
import LintDelta.Session

/-!
# Running a tool on a file

An adapter starts its tool on a file, decides from the exit status and the streams whether the tool
worked, and reads the report. A tool that leaves no report and complains has crashed; it is never
taken for a clean file.

Main statements: a tool that leaves a blank report and complains has no tally.
-/

namespace LintDelta

open Text (Bytes)

inductive ExitStatus where
  | code (n : Nat)
  | signal (n : Nat) (dumpedCore : Bool := false)
  deriving DecidableEq, Repr

namespace ExitStatus

/-- The names of the signals, from the first one on. -/
def signalNames : List String :=
  ["HUP", "INT", "QUIT", "ILL", "TRAP", "ABRT", "BUS", "FPE", "KILL", "USR1", "SEGV", "USR2", "PIPE",
    "ALRM", "TERM", "STKFLT", "CHLD", "CONT", "STOP", "TSTP", "TTIN", "TTOU", "URG", "XCPU", "XFSZ",
    "VTALRM", "PROF", "WINCH", "IO", "PWR", "SYS"]

/-- Real-time signals have no name. -/
def signalName : Nat → String
  | 0 => ""
  | n + 1 => match signalNames[n]? with
    | some name => " (SIG" ++ name ++ ")"
    | none => ""

def describe : ExitStatus → String
  | code n => "exit status: " ++ toString n
  | signal n dumpedCore =>
    "signal: " ++ toString n ++ signalName n ++ (if dumpedCore then " (core dumped)" else "")

def isSuccess (s : ExitStatus) : Bool := s = code 0

end ExitStatus

/-- What a tool leaves behind. -/
structure Outcome where
  status : ExitStatus
  stdout : Bytes
  stderr : Bytes
  /-- What its report file holds in the end, if the file is still there. -/
  report : Option Bytes
  deriving DecidableEq, Repr

structure Command where
  program : String
  arguments : List Bytes
  deriving DecidableEq, Repr

/-- Where tools are run. A tool sees its command line, the temporary files and the outside world; it
runs to its end, or cannot be started. -/
structure Toolbox (σ : Type) where
  start : Command → List TempFile → σ → Except String Outcome
  temp : TempDirectory
  shows : Origin → Level → Bool

namespace Toolbox

variable {σ α : Type}

/-- Notes a message, if such messages are shown; only then is it put together. -/
def notify (box : Toolbox σ) (origin : Origin) (level : Level) (message : Run σ Notice) :
    Run σ Unit := do
  if box.shows origin level then Run.record (.notice (← message))

/-- A command line holds no zero byte. -/
def hasZero (c : Command) : Bool :=
  (Text.encode c.program :: c.arguments).any (·.contains 0)

/-- Starts a program for a linter and waits for its end. -/
def execute (box : Toolbox σ) (linter : String) (command : Command) (path : Path) :
    Run σ Outcome := do
  box.notify .tools .debug (pure (.runningLinter linter))
  let s ← get
  let answer := if hasZero command then .error "nul byte found in provided data"
    else box.start command s.temps s.world
  match answer with
  | .ok outcome =>
    -- a tool that cannot be started leaves no trace
    Run.record (.tool command.program command.arguments)
    return outcome
  | .error reason =>
    Run.fail (.lintTool linter path
      ("failed to run `" ++ command.program ++ "`: " ++ reason))

end Toolbox

/-- A tool together with the program that stands for it. -/
structure Adapter where
  tool : Tool
  program : String
  ruleset : String
  deriving DecidableEq, Repr

namespace Adapter

def allRules : String := "rulesets/internal/all-java.xml"

def ofTool (tool : Tool) : Adapter := ⟨tool, tool.command, allRules⟩

def name (a : Adapter) : String := a.tool.title

/-! ## Command lines -/

/-- The arguments that make a tool lint a file; `report` is its report file, if it needs one. -/
def arguments (a : Adapter) (report : Option Path) (path : Path) : List Bytes :=
  let words := List.map Text.encode
  let file := match report with
    | some r => [r.bytes]
    | none => []
  match a.tool with
  | .pylint => words ["--output-format=json"] ++ [path.bytes]
  | .flawfinder => words ["--sarif"] ++ [path.bytes]
  | .hlint => words ["--cpp-simple", "--json"] ++ [path.bytes]
  | .ktlint => words ["--reporter=json"] ++ [path.bytes]
  | .pmd =>
    words ["-R", a.ruleset, "-language", "java", "-f", "json", "-r"] ++ file ++ words ["-d"] ++
      [path.bytes]
  | .cppcheck =>
    words ["-q", "-f", "--enable=all", "--suppress=missingInclude", "--suppress=unusedFunction",
      "--suppress=unmatchedSuppression", "--template=\x7bid\x7d \x7bseverity\x7d"] ++ [path.bytes]
  | .oclint =>
    words ["--report-type=json", "-o"] ++ file ++
      words ["--max-priority-1=999999", "--max-priority-2=999999", "--max-priority-3=999999"] ++
      [path.bytes]

def writesFile (a : Adapter) : Bool :=
  match a.tool with
  | .pmd | .oclint => true
  | _ => false

/-! ## Judging a run -/

/-- How much of the error stream a failure quotes, in characters. -/
def excerptLength : Nat := 400

/-- The failure of a run without a usable report. -/
def broken (a : Adapter) (path : Path) (outcome : Outcome) (reason : String) : Failure :=
  let excerpt := (Text.trimChars (Text.decodeLossy outcome.stderr).toList).take excerptLength
  .lintTool a.name path (reason ++ ", " ++ outcome.status.describe ++
    (if excerpt.isEmpty then "" else ": " ++ String.ofList excerpt))

/-- Whether a run ended badly or wrote to the error stream. -/
def complained (outcome : Outcome) : Bool :=
  !outcome.status.isSuccess || !Text.isBlankText (Text.decodeLossy outcome.stderr)

/-- Whether the exit code of Pylint tells of a fatal message (bit 0) or a usage error (bit 5). -/
def isFatal (a : Adapter) (outcome : Outcome) : Bool :=
  match a.tool, outcome.status with
  | .pylint, .code n => n.testBit 0 || n.testBit 5
  | _, _ => false

/-- The report of a run: its report file, its output, or for Cppcheck both streams. -/
def reportOf (a : Adapter) (path : Path) (outcome : Outcome) : Except Failure String :=
  match a.tool with
  | .pmd | .oclint =>
    match outcome.report with
    | some bytes => .ok (Text.decodeLossy bytes)
    | none => .error (.resource path ("failed to read report file: " ++ TempDirectory.notFound))
  | .cppcheck => .ok (Text.decodeLossy outcome.stdout ++ "\n" ++ Text.decodeLossy outcome.stderr)
  | _ => .ok (Text.decodeLossy outcome.stdout)

/-- The tally of a finished run, or why it has none. -/
def judge (a : Adapter) (path : Path) (outcome : Outcome) : Except Stop Tally :=
  if a.isFatal outcome then
    .error (.failed (a.broken path outcome "fatal error or usage error"))
  else match a.reportOf path outcome with
    | .error f => .error (.failed f)
    | .ok report =>
      -- a blank report is that of a clean file, unless the tool complained
      if Text.isBlankText report && complained outcome then
        .error (.failed (a.broken path outcome "no report"))
      else match a.tool.parseReport report with
        | .ok tally => .ok tally
        | .error .overflow => .error .overflow
        | .error e =>
          .error (.failed (a.broken path outcome ("unparsable report (" ++ e.message ++ ")")))

theorem judge_of_isBlankText {a : Adapter} {path : Path} {outcome : Outcome} {report : String}
    (hfatal : a.isFatal outcome = false) (hreport : a.reportOf path outcome = .ok report)
    (hblank : Text.isBlankText report = true) (hcomplained : complained outcome = true) :
    a.judge path outcome = .error (.failed (a.broken path outcome "no report")) := by
  simp only [judge, hfatal, hreport, hblank, hcomplained, Bool.false_eq_true, if_false, Bool.and_self,
    if_true]

/-! ## Linting -/

variable {σ : Type}

def lintWith (a : Adapter) (box : Toolbox σ) (path : Path) (report : Option Path) :
    Run σ Tally := do
  let outcome ← box.execute a.name ⟨a.program, a.arguments report path⟩ path
  MonadExcept.ofExcept (a.judge path outcome)

def lint (a : Adapter) (box : Toolbox σ) (path : Path) : Run σ Tally :=
  if a.writesFile then
    box.temp.withFile "git-contrast-report-" ".json"
      (fun reason => .resource path ("failed to create report file: " ++ reason))
      (fun report => a.lintWith box path (some report))
  else a.lintWith box path none

end Adapter

end LintDelta
