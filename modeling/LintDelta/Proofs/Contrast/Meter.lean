import LintDelta.Proofs.Contrast.Frames
import LintDelta.Proofs.Linter.Judging

/-!
# Counting what the tools report

How many entries all the tools of a contrast report is nothing that a session keeps. So the same contrast is
run in a world that has a meter beside it: version control and tools work on the world and leave the meter
alone, and a linter reads the meter on by what its tool reports (`Adapter.metered`). Nothing else looks at the
meter, and without it the run is the one that it was (`Bench.exec_contrast_eq_metered`).
-/

namespace LintDelta

open Text (Bytes)

variable {σ τ α β : Type}

/-! ## Something beside the world -/

/-- The session without what stands beside the world. -/
def Session.plain (s : Session (σ × τ)) : Session σ :=
  { s with world := s.world.1 }

/-- The session with something beside the world. -/
def Session.beside (s : Session σ) (t : τ) : Session (σ × τ) :=
  { s with world := (s.world, t) }

/-- Version control that leaves alone what stands beside the world. -/
def VersionControl.beside (vcs : VersionControl σ) : VersionControl (σ × τ) where
  workdir := vcs.workdir
  resolveRange range w := ((vcs.resolveRange range w.1).1, (vcs.resolveRange range w.1).2, w.2)
  changes source target w := ((vcs.changes source target w.1).1, (vcs.changes source target w.1).2, w.2)
  readBlob blob w := ((vcs.readBlob blob w.1).1, (vcs.readBlob blob w.1).2, w.2)
  head w := ((vcs.head w.1).1, (vcs.head w.1).2, w.2)
  isClean w := ((vcs.isClean w.1).1, (vcs.isClean w.1).2, w.2)
  checkout target w := ((vcs.checkout target w.1).1, (vcs.checkout target w.1).2, w.2)

/-- Tools that do not see what stands beside the world. -/
def Toolbox.beside (box : Toolbox σ) : Toolbox (σ × τ) :=
  { box with start := fun command temps w => box.start command temps w.1 }

def Bench.beside (b : Bench σ) : Bench (σ × τ) :=
  ⟨b.vcs.beside, b.box.beside⟩

/-! ## The meter -/

/-- What is read off the tools of a run. -/
structure Meter where
  /-- How many entries they reported. -/
  entries : Nat
  /-- How many of their reports had too many entries to be counted. -/
  overflows : Nat
  deriving DecidableEq, Repr

def Meter.zero : Meter := ⟨0, 0⟩

namespace Adapter

/-- The outcome of the tool when a file is linted, if the tool is run. -/
def outcome? (a : Adapter) (box : Toolbox σ) (file : Path) (s : Session σ) : Option Outcome :=
  if a.writesFile && !box.temp.present then none
  else match a.answer box file s with
    | .ok outcome => some outcome
    | .error _ => none

/-- How many entries there are in the report of the tool when a file is linted. -/
def entries (a : Adapter) (box : Toolbox σ) (file : Path) (s : Session σ) : Nat :=
  match a.outcome? box file s with
  | none => 0
  | some outcome =>
    match a.reportOf file outcome with
    | .error _ => 0
    | .ok report =>
      match a.tool.findings report with
      | .error _ => 0
      | .ok issues => issues.length

/-- The meter after a linting. -/
def meter (a : Adapter) (box : Toolbox σ) (file : Path) (s : Session (σ × Meter)) : Meter :=
  { entries := s.world.2.entries + a.entries box file s.plain
    overflows := match ((a.lint box file).exec s.plain).1 with
      | .error .overflow => s.world.2.overflows + 1
      | _ => s.world.2.overflows }

/-- An adapter as a linter that reads the meter on. -/
def metered (a : Adapter) (box : Toolbox σ) : Linter (σ × Meter) where
  name := a.name
  needsCheckout := a.tool.needsCheckout
  lint file := do
    let s ← get
    set { s with world := (s.world.1, a.meter box file s) }
    a.lint box.beside file

end Adapter

/-- The same choices, with the tools run by a toolbox and read by a meter. -/
def Options.metered (options : Options Adapter) (box : Toolbox σ) : Options (Linter (σ × Meter)) :=
  { options with routing := options.routing.map (·.metered box) }

/-- What the meter shows after a contrast. -/
def Bench.meter (b : Bench σ) (options : Options Adapter) (source target : CommitId) (s : Session σ) : Meter :=
  ((b.beside.contrast (options.metered b.box) source target).exec (s.beside Meter.zero)).2.world.2

/-! ## Runs without the meter -/

namespace Run

/-- A run with something beside the world is, without that, another run. -/
def Projects (x : Run (σ × τ) α) (y : Run σ α) : Prop :=
  ∀ s, y.exec s.plain = ((x.exec s).1, (x.exec s).2.plain)

namespace Projects

variable {x : Run (σ × τ) α} {y : Run σ α}

theorem pure (a : α) : Projects (Pure.pure a : Run (σ × τ) α) (Pure.pure a) := fun _ => rfl

theorem fail (e : Failure) : Projects (Run.fail e : Run (σ × τ) α) (Run.fail e) := fun _ => rfl

theorem ofExcept (r : Except Stop α) :
    Projects (MonadExcept.ofExcept r : Run (σ × τ) α) (MonadExcept.ofExcept r) := fun s => by
  rw [exec_ofExcept, exec_ofExcept]

theorem need (stop : Stop) (o : Option α) : Projects (Run.need stop o : Run (σ × τ) α) (Run.need stop o) := by
  cases o <;> exact fun _ => rfl

theorem record (e : Event) : Projects (Run.record e : Run (σ × τ) Unit) (Run.record e) := fun _ => rfl

theorem call (e : Event) {f : σ × τ → Except Failure α × (σ × τ)} {g : σ → Except Failure α × σ}
    (h : ∀ w, (f w).1 = (g w.1).1 ∧ (f w).2.1 = (g w.1).2) : Projects (Run.call e f) (Run.call e g) := fun s => by
  rw [exec_call, exec_call]
  simp only [Session.plain, h s.world]

theorem bind {f : α → Run (σ × τ) β} {g : α → Run σ β} (hx : Projects x y) (hf : ∀ a, Projects (f a) (g a)) :
    Projects (x >>= f) (y >>= g) := fun s => by
  rw [exec_bind, exec_bind, hx s]
  rcases x.exec s with ⟨_ | a, s₁⟩
  · rfl
  · exact hf a s₁

theorem reword (hx : Projects x y) (f : Failure → Failure) : Projects (x.reword f) (y.reword f) := fun s => by
  rw [exec_reword, exec_reword, hx s]
  rcases x.exec s with ⟨(_ | _ | _) | a, s₁⟩ <;> rfl

theorem attempt (hx : Projects x y) : Projects x.attempt y.attempt := fun s => by
  rw [exec_attempt, exec_attempt, hx s]
  rcases x.exec s with ⟨(_ | _ | _) | a, s₁⟩ <;> rfl

theorem ensuring {last : Run (σ × τ) Unit} {last' : Run σ Unit} (hx : Projects x y) (hl : Projects last last') :
    Projects (x.ensuring last) (y.ensuring last') := fun s => by
  rw [exec_ensuring, exec_ensuring, hx s]
  dsimp only
  rw [hl (x.exec s).2]
  rcases last.exec (x.exec s).2 with ⟨_ | _, s₁⟩ <;> rfl

theorem fill (content : Bytes) :
    Projects (TempDirectory.fill content : Run (σ × τ) Unit) (TempDirectory.fill content) := fun s => by
  rcases s with ⟨world, _ | ⟨latest, others⟩, made, trace⟩ <;> rfl

theorem withFile (dir : TempDirectory) (start ending : String) (onFailure : String → Failure)
    {body : Path → Run (σ × τ) α} {body' : Path → Run σ α} (h : ∀ file, Projects (body file) (body' file)) :
    Projects (dir.withFile start ending onFailure body) (dir.withFile start ending onFailure body') := fun s => by
  rw [TempDirectory.exec_withFile, TempDirectory.exec_withFile]
  dsimp only
  cases dir.present with
  | false => rfl
  | true =>
    let file := dir.path.join (TempDirectory.name start (dir.token s.made) ending)
    have hbody := h file { s with temps := ⟨file, []⟩ :: s.temps, made := s.made + 1 }
    rw [if_pos rfl, if_pos rfl]
    exact Prod.ext (congrArg (·.1) hbody)
      (congrArg (fun r => { r.2 with temps := r.2.temps.drop 1 : Session σ }) hbody)

theorem notify {box : Toolbox σ} {origin : Origin} {level : Level} {message : Run (σ × τ) Notice}
    {message' : Run σ Notice} (h : Projects message message') :
    Projects (box.beside.notify origin level message) (box.notify origin level message') := by
  unfold Toolbox.notify
  show Projects (if box.shows origin level then _ else _) _
  split
  · exact h.bind fun n => record _
  · exact pure ()

end Projects

end Run

open Run (Projects)

/-! ## Tools and linters -/

theorem Toolbox.projects_execute (box : Toolbox σ) (linter : String) (command : Command) (path : Path) :
    Projects (box.beside.execute linter command path : Run (σ × τ) Outcome) (box.execute linter command path) := by
  unfold execute
  refine (Projects.notify (.pure _)).bind fun _ s => ?_
  rw [Run.exec_bind, Run.exec_bind, Run.exec_get, Run.exec_get]
  dsimp only
  have hanswer : box.beside.start command s.temps s.world = box.start command s.plain.temps s.plain.world := rfl
  rw [hanswer]
  cases (if hasZero command then .error "nul byte found in provided data"
    else box.start command s.plain.temps s.plain.world) with
  | error reason => rfl
  | ok outcome => rfl

theorem Adapter.projects_lint (a : Adapter) (box : Toolbox σ) (file : Path) :
    Projects (a.lint box.beside file : Run (σ × τ) Tally) (a.lint box file) := by
  have hwith (report : Option Path) :
      Projects (a.lintWith box.beside file report : Run (σ × τ) Tally) (a.lintWith box file report) :=
    (box.projects_execute _ _ file).bind fun outcome => .ofExcept _
  unfold lint
  split
  · exact .withFile _ _ _ _ fun report => hwith (some report)
  · exact hwith none

/-- The meter makes no difference to a linting. -/
theorem Adapter.projects_metered (a : Adapter) (box : Toolbox σ) (file : Path) :
    Projects ((a.metered box).lint file) ((a.linter box).lint file) := fun s =>
  a.projects_lint box file { s with world := (s.world.1, a.meter box file s) }

namespace Bench

variable (b : Bench σ) {a : Adapter}

theorem projects_lintAs (side : Side) (file : Path) :
    Projects (lintAs side (a.metered b.box) file) (lintAs side (a.linter b.box) file) :=
  (a.projects_metered b.box file).reword _

theorem projects_lintCopy (side : Side) :
    Projects (b.beside.lintCopy (a.metered b.box) side) (b.lintCopy (a.linter b.box) side) := by
  refine Projects.withFile _ _ _ _ fun file => ?_
  refine Projects.bind (Projects.reword (.call _ fun _ => ⟨rfl, rfl⟩) _) fun content => ?_
  refine Projects.bind (.fill content) fun _ => ?_
  refine Projects.bind (Projects.notify (Projects.bind (.need _ _) fun _ => .pure _)) fun _ => ?_
  exact b.projects_lintAs side file

theorem projects_lintCopy? : ∀ side? : Option Side,
    Projects (b.beside.lintCopy? (a.metered b.box) side?) (b.lintCopy? (a.linter b.box) side?)
  | none => .pure _
  | some side => b.projects_lintCopy side

theorem projects_visit (side : Side) :
    Projects (b.beside.visit (a.metered b.box) side) (b.visit (a.linter b.box) side) :=
  Projects.bind (Projects.reword (.call _ fun _ => ⟨rfl, rfl⟩) _) fun _ => b.projects_lintAs side _

theorem projects_announce (side : Side) :
    Projects (b.beside.announce (a.metered b.box) side) (b.announce (a.linter b.box) side) :=
  Projects.notify (Projects.bind (.need _ _) fun _ => .pure _)

theorem projects_holdTree (path : Path) : Projects (b.beside.holdTree path : Run (σ × τ) Head) (b.holdTree path) := by
  refine Projects.bind (Projects.reword (.call _ fun _ => ⟨rfl, rfl⟩) _) fun clean => ?_
  cases clean
  · exact .fail _
  · exact Projects.reword (.call _ fun _ => ⟨rfl, rfl⟩) _

theorem projects_restore (initial : Head) :
    Projects (b.beside.restore initial : Run (σ × τ) Unit) (b.restore initial) := by
  refine Projects.bind (Projects.attempt (.call _ fun _ => ⟨rfl, rfl⟩)) fun answer => ?_
  cases answer
  · exact Projects.notify (Projects.bind (.need _ _) fun _ => .pure _)
  · exact .pure _

theorem projects_lintInTree (path : Path) (pre post : Option Side) :
    Projects (b.beside.lintInTree (a.metered b.box) path pre post) (b.lintInTree (a.linter b.box) path pre post) := by
  refine (b.projects_holdTree path).bind fun initial => ?_
  have hrestore : Projects (b.beside.restore initial : Run (σ × Meter) Unit) (b.restore initial) :=
    b.projects_restore initial
  cases pre with
  | none =>
    cases post with
    | none => exact .pure _
    | some after =>
      exact (b.projects_announce after).bind fun _ =>
        Projects.ensuring ((b.projects_visit after).bind fun _ => .pure _) hrestore
  | some before =>
    cases post with
    | none =>
      exact (b.projects_announce before).bind fun _ =>
        Projects.ensuring ((b.projects_visit before).bind fun _ => .pure _) hrestore
    | some after =>
      refine (b.projects_announce before).bind fun _ => Projects.ensuring ?_ hrestore
      exact (b.projects_visit before).bind fun _ => (b.projects_announce after).bind fun _ =>
        (b.projects_visit after).bind fun _ => .pure _

theorem projects_lintChange (change : Change) (source target : CommitId) :
    Projects (b.beside.lintChange (a.metered b.box) change source target)
      (b.lintChange (a.linter b.box) change source target) := by
  unfold lintChange
  show Projects (if a.tool.needsCheckout then _ else _) (if a.tool.needsCheckout then _ else _)
  split
  · exact b.projects_lintInTree _ _ _
  · exact (b.projects_lintCopy? _).bind fun _ => (b.projects_lintCopy? _).bind fun _ => .pure _

/-! ## The walk over the changes -/

theorem projects_contrastFile (policy : Policy) (report : Report) (change : Change) :
    Projects (b.beside.contrastFile policy report change (a.metered b.box))
      (b.contrastFile policy report change (a.linter b.box)) := by
  refine Projects.bind (b.projects_lintChange change _ _).attempt fun answer => ?_
  rcases answer with e | ⟨pre, post⟩
  · dsimp only
    split
    · exact Projects.bind (Projects.notify (.pure _)) fun _ => .pure _
    · exact .fail _
  · exact Projects.bind (.need _ _) fun _ => .need _ _

theorem projects_contrastChange (options : Options Adapter) (report : Report) (change : Change) :
    Projects (b.beside.contrastChange (options.metered b.box) report change)
      (b.contrastChange (options.equip b.box) report change) := by
  refine Projects.bind (.need _ _) fun report => ?_
  split
  · exact Projects.bind (Projects.notify (.pure _)) fun _ => .pure _
  · unfold Options.metered Options.equip
    rw [Routing.select_map, Routing.select_map]
    cases options.routing.select change.path options.language with
    | none => exact Projects.bind (Projects.notify (.pure _)) fun _ => .pure _
    | some a =>
      exact Projects.bind (Projects.notify (.pure _)) fun _ => b.projects_contrastFile _ report change

theorem projects_contrastAll (options : Options Adapter) (changes : List Change) (report : Report) :
    Projects (b.beside.contrastAll (options.metered b.box) report changes)
      (b.contrastAll (options.equip b.box) report changes) := by
  induction changes generalizing report with
  | nil => exact .pure _
  | cons change changes ih => exact (b.projects_contrastChange options report change).bind fun report' => ih report'

theorem projects_contrast (options : Options Adapter) (source target : CommitId) :
    Projects (b.beside.contrast (options.metered b.box) source target)
      (b.contrast (options.equip b.box) source target) := by
  refine Projects.bind (Projects.notify ?_) fun _ => ?_
  · exact Projects.bind (.need _ _) fun _ => Projects.bind (.need _ _) fun _ => .pure _
  refine Projects.bind (.call _ fun _ => ⟨rfl, rfl⟩) fun changes => ?_
  refine (b.projects_contrastAll options changes _).bind fun report => ?_
  exact Projects.bind (Projects.notify (Projects.bind (.need _ _) fun _ => .pure _)) fun _ => .pure _

/-- **The meter makes no difference to a contrast.** -/
theorem exec_contrast_eq_metered (options : Options Adapter) (source target : CommitId) (s : Session σ) :
    (b.contrast (options.equip b.box) source target).exec s =
      let r := (b.beside.contrast (options.metered b.box) source target).exec (s.beside Meter.zero)
      (r.1, r.2.plain) :=
  b.projects_contrast options source target (s.beside Meter.zero)

end Bench

end LintDelta
