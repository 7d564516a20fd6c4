import LintDelta.Failure
import LintDelta.Text.Quoted
import LintDelta.Change

/-!
# Sessions

A contrast is a computation on a session: the state of the outside world, the temporary files that
exist, and the trace of what was done so far. A run ends with a value, or stops; whatever it did
before it stopped stays in the session.

Main statements: how a run goes on after its first part, what a call leaves in the trace, and that
what `ensuring` does last it does on every way out (`exec_bind`, `exec_call`, `exec_ensuring`).
-/

namespace LintDelta

open Text (Bytes)

/-! ## What is noted -/

inductive Level where
  | error
  | warn
  | info
  | debug
  deriving DecidableEq, Repr

/-- How many levels are at least as important as a level. -/
def Level.rank : Level → Nat
  | error => 1
  | warn => 2
  | info => 3
  | debug => 4

def Level.name : Level → String
  | error => "ERROR"
  | warn => "WARN"
  | info => "INFO"
  | debug => "DEBUG"

inductive Origin where
  | program
  | contrast
  | versions
  | tools
  deriving DecidableEq, Repr

inductive Notice where
  | discovering (directory : String) (range : List String)
  | runningLinter (linter : String)
  | lintingCopy (linter : String) (path : Path) (commit : String)
  | checkingOut (linter : String) (path : Path) (commit : String)
  | contrasting (source target : String)
  | contentUnchanged (path : Path)
  | noLinter (path : Path)
  | lintingFile (path : Path) (kind : Change.Kind) (linter : String)
  | skippingFile (path : Path) (linter : String) (error : String)
  | notRestored (head : String) (error : String)
  | complete (files failures : Nat) (net : Int)
  deriving DecidableEq, Repr

namespace Notice

def level : Notice → Level
  | skippingFile .. | notRestored .. => .warn
  | contrasting .. | complete .. => .info
  | _ => .debug

def fields : Notice → List (String × String)
  | discovering directory range =>
    [("message", "discovering repository"), ("repo", directory),
      ("range", "[" ++ String.intercalate ", " (range.map Text.quoted) ++ "]")]
  | runningLinter linter => [("message", "running linter"), ("linter", linter)]
  | lintingCopy linter path commit =>
    [("message", "linting extracted blob"), ("linter", linter), ("path", path.display),
      ("commit", commit)]
  | checkingOut linter path commit =>
    [("message", "checking out for linter"), ("linter", linter), ("path", path.display),
      ("commit", commit)]
  | contrasting source target =>
    [("message", "contrasting commits"), ("from", source), ("to", target)]
  | contentUnchanged path => [("message", "content unchanged, skipping"), ("path", path.display)]
  | noLinter path => [("message", "no linter for file, skipping"), ("path", path.display)]
  | lintingFile path kind linter =>
    [("message", "linting file"), ("path", path.display), ("kind", kind.label), ("linter", linter)]
  | skippingFile path linter error =>
    [("message", "skipping file"), ("path", path.display), ("linter", linter), ("error", error)]
  | notRestored head error =>
    [("message", "failed to restore working tree"), ("head", head), ("error", error)]
  | complete files failures net =>
    [("message", "contrast complete"), ("files", toString files), ("failures", toString failures),
      ("net", toString net)]

def line (n : Notice) : String :=
  let value (field : String × String) : String :=
    if field.1 == "message" then field.2 else field.1 ++ "=" ++ field.2
  String.intercalate " " (n.level.name :: n.fields.map value)

end Notice

/-- Something that was done during a run. -/
inductive Event where
  | resolveRange (range : List String)
  | changes (source target : CommitId)
  | isClean
  | head
  | checkout (target : Head)
  | readBlob (blob : BlobId)
  | tool (program : String) (arguments : List Bytes)
  | notice (n : Notice)
  deriving DecidableEq, Repr

/-! ## Sessions and runs -/

structure TempFile where
  path : Path
  content : Bytes
  deriving DecidableEq, Repr

/-- The outside world `σ` together with what a run adds to it. -/
structure Session (σ : Type) where
  world : σ
  /-- The temporary files that exist, the latest first. -/
  temps : List TempFile
  /-- How many temporary files were ever made. -/
  made : Nat
  trace : List Event

def Session.start {σ : Type} (world : σ) : Session σ := ⟨world, [], 0, []⟩

/-- Why a run stops before its end. -/
inductive Stop where
  | failed (f : Failure)
  /-- A count left the range of machine integers. -/
  | overflow
  /-- A commit id cannot be abbreviated without splitting a character. -/
  | splitCharacter
  deriving DecidableEq, Repr

/-- A computation on a session that may stop. -/
abbrev Run (σ α : Type) := ExceptT Stop (StateM (Session σ)) α

namespace Run

variable {σ α : Type}

def fail (f : Failure) : Run σ α := throw (.failed f)

/-- The value, or a stop where there is none. -/
def need (stop : Stop) : Option α → Run σ α
  | some x => pure x
  | none => throw stop

def record (e : Event) : Run σ Unit :=
  modify fun s => { s with trace := s.trace ++ [e] }

/-- Calls the outside world, which may change on the way, and notes the call before it is made. -/
def call (e : Event) (f : σ → Except Failure α × σ) : Run σ α := do
  record e
  let s ← get
  let (answer, world) := f s.world
  set { s with world := world }
  match answer with
  | .ok x => pure x
  | .error e => fail e

/-- The answer of a run that may fail; a run that stops for another reason stops here too. -/
def attempt (body : Run σ α) : Run σ (Except Failure α) := fun s =>
  match body s with
  | (.ok x, s) => (.ok (.ok x), s)
  | (.error (.failed f), s) => (.ok (.error f), s)
  | (.error stop, s) => (.error stop, s)

def reword (f : Failure → Failure) (body : Run σ α) : Run σ α := fun s =>
  match body s with
  | (.error (.failed e), s) => (.error (.failed (f e)), s)
  | other => other

/-- Does one thing last, whether the body ends or stops. -/
def ensuring (body : Run σ α) (last : Run σ Unit) : Run σ α := fun s =>
  let (answer, s) := body s
  match last s with
  | (.ok (), s) => (answer, s)
  | (.error stop, s) => (.error stop, s)

/-! ### Laws -/

/-- How a run from a session ends, and the session that it leaves. -/
def exec (x : Run σ α) (s : Session σ) : Except Stop α × Session σ := x s

@[simp] theorem exec_pure (x : α) (s : Session σ) : (pure x : Run σ α).exec s = (.ok x, s) := rfl

@[simp] theorem exec_throw (stop : Stop) (s : Session σ) :
    (throw stop : Run σ α).exec s = (.error stop, s) := rfl

@[simp] theorem exec_fail (f : Failure) (s : Session σ) :
    (fail f : Run σ α).exec s = (.error (.failed f), s) := rfl

@[simp] theorem exec_get (s : Session σ) : (get : Run σ (Session σ)).exec s = (.ok s, s) := rfl

@[simp] theorem exec_set (s t : Session σ) : (set t : Run σ PUnit).exec s = (.ok ⟨⟩, t) := rfl

@[simp] theorem exec_modify (f : Session σ → Session σ) (s : Session σ) :
    (modify f : Run σ PUnit).exec s = (.ok ⟨⟩, f s) := rfl

@[simp] theorem exec_ofExcept (e : Except Stop α) (s : Session σ) :
    (MonadExcept.ofExcept e : Run σ α).exec s = (e, s) := by
  cases e <;> rfl

/-- A run goes on where its first part left the session, unless that part stopped. -/
theorem exec_bind {β : Type} (x : Run σ α) (f : α → Run σ β) (s : Session σ) :
    (x >>= f).exec s = match x.exec s with
      | (.ok a, s') => (f a).exec s'
      | (.error e, s') => (.error e, s') := by
  unfold exec
  rcases h : x s with ⟨e | a, s'⟩
  · simp only [bind, ExceptT.bind, ExceptT.mk, StateT.bind, h, ExceptT.bindCont]
    rfl
  · simp only [bind, ExceptT.bind, ExceptT.mk, StateT.bind, h, ExceptT.bindCont]

@[simp] theorem exec_record (e : Event) (s : Session σ) :
    (record e).exec s = (.ok (), { s with trace := s.trace ++ [e] }) := rfl

@[simp] theorem exec_call (e : Event) (f : σ → Except Failure α × σ) (s : Session σ) :
    (call e f).exec s = (((f s.world).1).mapError .failed,
      { s with world := (f s.world).2, trace := s.trace ++ [e] }) := by
  rcases h : f s.world with ⟨_ | _, w⟩ <;>
    simp only [call, exec_bind, exec_record, exec_get, exec_set, h] <;> rfl

theorem exec_attempt (body : Run σ α) (s : Session σ) :
    body.attempt.exec s = match body.exec s with
      | (.ok x, s') => (.ok (.ok x), s')
      | (.error (.failed f), s') => (.ok (.error f), s')
      | (.error stop, s') => (.error stop, s') := rfl

theorem exec_reword (f : Failure → Failure) (body : Run σ α) (s : Session σ) :
    (body.reword f).exec s = match body.exec s with
      | (.error (.failed e), s') => (.error (.failed (f e)), s')
      | other => other := rfl

theorem exec_ensuring (body : Run σ α) (last : Run σ Unit) (s : Session σ) :
    (body.ensuring last).exec s = match last.exec (body.exec s).2 with
      | (.ok (), s') => ((body.exec s).1, s')
      | (.error stop, s') => (.error stop, s') := rfl

/-! ### The session that is left -/

@[simp] theorem exec_attempt_snd (body : Run σ α) (s : Session σ) :
    (body.attempt.exec s).2 = (body.exec s).2 := by
  rw [exec_attempt]
  rcases body.exec s with ⟨(_ | _ | _) | _, s'⟩ <;> rfl

@[simp] theorem exec_reword_snd (f : Failure → Failure) (body : Run σ α) (s : Session σ) :
    ((body.reword f).exec s).2 = (body.exec s).2 := by
  rw [exec_reword]
  rcases body.exec s with ⟨(_ | _ | _) | _, s'⟩ <;> rfl

@[simp] theorem exec_ensuring_snd (body : Run σ α) (last : Run σ Unit) (s : Session σ) :
    ((body.ensuring last).exec s).2 = (last.exec (body.exec s).2).2 := by
  rw [exec_ensuring]
  rcases last.exec (body.exec s).2 with ⟨_ | _, s'⟩ <;> rfl

end Run

/-! ## Temporary files -/

structure TempDirectory where
  path : Path
  present : Bool
  /-- The random part of the name of each temporary file that is made. -/
  token : Nat → String

namespace TempDirectory

def notFound : String := "No such file or directory (os error 2)"

def name (start token ending : String) : Path := .ofString (start ++ token ++ ending)

variable {σ α : Type}

/-- Makes a temporary file for the length of a run. -/
def withFile (dir : TempDirectory) (start ending : String) (onFailure : String → Failure)
    (body : Path → Run σ α) : Run σ α := do
  let s ← get
  let path := dir.path.join (name start (dir.token s.made) ending)
  if dir.present then
    set { s with temps := ⟨path, []⟩ :: s.temps, made := s.made + 1 }
    -- what the body makes is gone by then, so the latest file is this one
    (body path).ensuring (modify fun s => { s with temps := s.temps.drop 1 })
  else
    Run.fail (onFailure (notFound ++ " at path " ++ Text.quoted path.display))

def fill (content : Bytes) : Run σ Unit :=
  modify fun s => match s.temps with
    | latest :: others => { s with temps := { latest with content := content } :: others }
    | [] => s

/-- A temporary file is there for its run alone: it is gone when the run ends, however it ends. -/
theorem exec_withFile (dir : TempDirectory) (start ending : String) (onFailure : String → Failure)
    (body : Path → Run σ α) (s : Session σ) :
    (dir.withFile start ending onFailure body).exec s =
      let path := dir.path.join (name start (dir.token s.made) ending)
      if dir.present then
        let r := (body path).exec { s with temps := ⟨path, []⟩ :: s.temps, made := s.made + 1 }
        (r.1, { r.2 with temps := r.2.temps.drop 1 })
      else (.error (.failed (onFailure (notFound ++ " at path " ++ Text.quoted path.display))), s) := by
  simp only [withFile, Run.exec_bind, Run.exec_get]
  split
  · simp only [Run.exec_bind, Run.exec_set, Run.exec_ensuring, Run.exec_modify]
  · rfl

end TempDirectory

end LintDelta
