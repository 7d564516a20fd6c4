import LintDelta.Proofs.Contrast.Linting

/-!
# The order of calls in a contrast

What a contrast may call, and when, whatever is answered and however it ends. The calls come in blocks, one
for each change (`Bench.Course`), and a block follows the strategy of the change's linter: temporary copies
are made one after the other (`Bench.Copying`), and the working tree is asked about, moved for one side after
the other, and put back last (`Bench.Guarding`). In such a block every tool runs while the tree is at the
commit of its side (`Bench.Guarding.runsWhile`).

Linters are known by one property here: they run tools, and call version control for nothing
(`Linter.RunsTools`).
-/

namespace LintDelta

open Run (Tells TellsFrom)
open Text (Bytes)

variable {σ α β : Type}

/-! ## Linters -/

namespace Linter

/-- All that a linter does is to run tools. -/
def RunsTools (vcs : VersionControl σ) (linter : Linter σ) : Prop :=
  ∀ file, Tells vcs (fun _ seen => OnlyTools seen) (linter.lint file)

/-- A tool that a linter runs in some session when it is given a file. -/
def Runs (linter : Linter σ) (file : Path) (program : String) (arguments : List Bytes) : Prop :=
  ∃ now : Session σ, .tool program arguments ∈ ((linter.lint file).exec now).2.trace.drop now.trace.length

end Linter

/-- The calls of a linting are tools that the linter runs on its file. -/
def Linter.Ran (linter : Linter σ) (file : Path) (seen : List Call) : Prop :=
  ∀ call ∈ seen, ∃ program arguments, call = (.tool program arguments, .done) ∧
    linter.Runs file program arguments

theorem Linter.RunsTools.ran {vcs : VersionControl σ} {linter : Linter σ} (h : linter.RunsTools vcs)
    (file : Path) : Tells vcs (fun _ seen => linter.Ran file seen) (linter.lint file) := by
  intro s
  obtain ⟨events, ht, hw, hseen⟩ := h file s
  refine ⟨events, ht, hw, fun call hcall => ?_⟩
  obtain ⟨program, arguments, rfl⟩ := hseen call hcall
  refine ⟨program, arguments, rfl, s, ?_⟩
  rw [ht, List.drop_left]
  exact VersionControl.mem_of_mem_calls hcall

/-! ## One side -/

/-- The call that makes a side available to a linter: a checkout of its commit, or the reading of its blob. -/
def Linter.supply (linter : Linter σ) (side : Side) : Event :=
  if linter.needsCheckout then .checkout (.detached side.commit) else .readBlob side.version.blob

namespace Bench

/-- The file that a linter is given for a side: the one in the working tree, or a temporary copy. -/
def Presents (b : Bench σ) (linter : Linter σ) (side : Side) (file : Path) : Prop :=
  if linter.needsCheckout then file = b.vcs.workdir.join side.path
  else ∃ token, file = b.box.temp.path.join
    (TempDirectory.name "git-contrast-" token (side.path.extension.getD ""))

/-- The calls for a side, if there is one. It is made available by one call, and tools are run on it only if
that succeeds. -/
inductive Tends (b : Bench σ) (linter : Linter σ) : Option Side → List Call → Prop
  | missing : Tends b linter none []
  /-- The side could not be tried. -/
  | untried (side : Side) : Tends b linter (some side) []
  | refused (side : Side) (e : Failure) : Tends b linter (some side) [(linter.supply side, .fault e)]
  | supplied {side : Side} {file : Path} {runs : List Call} (hfile : b.Presents linter side file)
    (hruns : linter.Ran file runs) : Tends b linter (some side) ((linter.supply side, .done) :: runs)

/-- The sides of a change are tended one after the other, and the second only if the first was linted. -/
structure InOrder (b : Bench σ) (linter : Linter σ) (pre post : Option Side) (linted : Side → Prop)
    (first second : List Call) : Prop where
  tends_pre : b.Tends linter pre first
  tends_post : b.Tends linter post second
  after : second ≠ [] → ∀ side, pre = some side → linted side

/-- Two copies from a session on, one after the other. -/
def Copying (b : Bench σ) (linter : Linter σ) (pre post : Option Side) (s : Session σ) (seen : List Call) :
    Prop :=
  ∃ first second, seen = first ++ second ∧
    b.InOrder linter pre post (fun side => ∃ t s', (b.lintCopy linter side).exec s = (.ok t, s')) first second

/-! ## The tree -/

/-- What is asked before the tree is left alone. -/
inductive Refusal : List Call → Prop
  | unknown (e : Failure) : Refusal [(.isClean, .fault e)]
  | unclean : Refusal [(.isClean, .clean false)]
  | lost (e : Failure) : Refusal [(.isClean, .clean true), (.head, .fault e)]

theorem Refusal.not_tool {asked : List Call} (h : Refusal asked) :
    ∀ call ∈ asked, ∀ program arguments, call.1 ≠ .tool program arguments := by
  cases h with
  | unknown e => simp
  | unclean => simp
  | lost e => simp

/-- A side was linted well in the tree, by a guard that was told `name` as the place of HEAD. -/
def Visited (b : Bench σ) (linter : Linter σ) (path : Path) (name : Head) (s : Session σ) (side : Side) : Prop :=
  ∃ s₁ t s₂, (b.holdTree path).exec s = (.ok name, s₁) ∧
    (b.announce linter side >>= fun _ => b.visit linter side).exec s₁ = (.ok t, s₂)

/-- The calls of a guard of the working tree from a session on. It asks whether the tree is clean and where
HEAD is. Only if both are answered well it may check out one side after the other, and if it tried to, it
checks out last what it was told of HEAD. -/
inductive Guarding (b : Bench σ) (linter : Linter σ) (path : Path) (pre post : Option Side) (s : Session σ) :
    List Call → Prop
  | refused {asked : List Call} (h : Refusal asked) : Guarding b linter path pre post s asked
  | idle (name : Head) : Guarding b linter path pre post s (Settled.asked name)
  | moved (name : Head) {first second : List Call} (answer : Answer)
    (h : b.InOrder linter pre post (b.Visited linter path name s) first second)
    (htried : first ++ second ≠ []) :
    Guarding b linter path pre post s (Settled.asked name ++ (first ++ second) ++ [(.checkout name, answer)])

end Bench

/-- What is checked out after a call, where `last` was before it. -/
def movedBy (last : Option Head) : Call → Option Head
  | (.checkout target, .done) => some target
  | _ => last

/-- Every tool is run while the last successful checkout is of something for which `P` holds of the tool. -/
def RunsWhile (P : Head → String → List Bytes → Prop) (last : Option Head) : List Call → Prop
  | [] => True
  | call :: rest => (∀ program arguments, call.1 = .tool program arguments →
      ∃ target, last = some target ∧ P target program arguments) ∧ RunsWhile P (movedBy last call) rest

theorem runsWhile_append {P : Head → String → List Bytes → Prop} {last : Option Head} {seen seen' : List Call} :
    RunsWhile P last (seen ++ seen') ↔ RunsWhile P last seen ∧ RunsWhile P (seen.foldl movedBy last) seen' := by
  induction seen generalizing last with
  | nil => simp [RunsWhile]
  | cons call rest ih => simp [RunsWhile, ih, and_assoc]

/-! ## Linting a change -/

namespace Bench

variable {b : Bench σ} {linter : Linter σ}

/-- A linter that is given a file runs its tools, whatever becomes of its failure. -/
theorem ran_lintAs (hlinter : linter.RunsTools b.vcs) (side : Side) (file : Path) :
    Tells b.vcs (fun _ seen => linter.Ran file seen) (lintAs side linter file) :=
  (hlinter.ran file).reword (fun _ _ h => h) (fun _ _ h => h) fun _ _ _ h => h

theorem tells_announce (linter : Linter σ) (side : Side) :
    Tells b.vcs (fun _ seen => seen = []) (b.announce linter side) :=
  Tells.notify_named rfl rfl

/-- A side that is visited is checked out, or at least that is tried. -/
theorem tends_visit (hlinter : linter.RunsTools b.vcs) (htree : linter.needsCheckout = true) (side : Side) :
    Tells b.vcs (fun _ seen => b.Tends linter (some side) seen ∧ seen ≠ []) (b.visit linter side) := by
  have hsupply : linter.supply side = .checkout (.detached side.commit) := by
    rw [Linter.supply, if_pos htree]
  have hfile : b.Presents linter side (b.vcs.workdir.join side.path) := by
    rw [Presents, if_pos htree]
  unfold visit
  refine Tells.bind (Tells.call_reword (fun _ => .done) _ nofun fun _ => rfl) ?_ ?_
  · rintro stop seen (⟨_, heq, -⟩ | ⟨e, -, rfl⟩)
    · cases heq
    · exact ⟨hsupply ▸ .refused side e, List.cons_ne_nil _ _⟩
  · rintro _ seen (⟨_, -, rfl⟩ | ⟨_, heq, -⟩)
    · refine (ran_lintAs hlinter side _).mono fun _ runs hruns => ?_
      exact ⟨hsupply ▸ .supplied hfile hruns, List.cons_ne_nil _ _⟩
    · cases heq

/-- A copy is read off its blob, and only then linted. -/
theorem tends_lintCopy (hlinter : linter.RunsTools b.vcs) (hcopy : linter.needsCheckout = false)
    (side : Side) : Tells b.vcs (fun _ seen => b.Tends linter (some side) seen) (b.lintCopy linter side) := by
  have hsupply : linter.supply side = .readBlob side.version.blob := by
    rw [Linter.supply, hcopy]
    rfl
  intro s
  unfold lintCopy
  rw [TempDirectory.exec_withFile]
  dsimp only
  split
  · have hfile : b.Presents linter side (b.box.temp.path.join (TempDirectory.name "git-contrast-"
        (b.box.temp.token s.made) (side.path.extension.getD ""))) := by
      rw [Presents, hcopy]
      exact ⟨_, rfl⟩
    refine Tells.bind (Ψ := fun _ seen => b.Tends linter (some side) seen)
      (Tells.call_reword (fun _ => .done) _ (by nofun) fun _ => rfl) ?_ ?_ _
    · rintro stop seen (⟨_, heq, -⟩ | ⟨e, -, rfl⟩)
      · cases heq
      · exact hsupply ▸ .refused side e
    · rintro content seen (⟨_, -, rfl⟩ | ⟨_, heq, -⟩)
      · have hsupplied {seen : List Call} (hseen : seen = []) :
            b.Tends linter (some side) ([(.readBlob side.version.blob, .done)] ++ seen) := by
          subst hseen
          exact hsupply ▸ .supplied hfile fun _ hcall => nomatch hcall
        refine Tells.bind (Φ := fun _ seen => seen = []) (Tells.fill rfl) (fun _ _ h => hsupplied h) ?_
        rintro _ _ rfl
        refine Tells.bind (Φ := fun _ seen => seen = []) (Tells.notify_named rfl rfl) (fun _ _ h => ?_) ?_
        · exact hsupplied h
        · rintro _ _ rfl
          refine (ran_lintAs hlinter side _).mono fun _ runs hruns => ?_
          exact hsupply ▸ .supplied hfile hruns
      · cases heq
  · exact ⟨[], (List.append_nil _).symm, rfl, .untried side⟩

/-- The tree is held after two questions, or left alone. -/
theorem refusal_or_asked_holdTree (path : Path) :
    Tells b.vcs (fun r seen => (∃ name, r = .ok name ∧ seen = Settled.asked name) ∨
      (∀ name, r ≠ .ok name) ∧ Refusal seen) (b.holdTree path) := by
  unfold holdTree
  refine Tells.bind (Tells.call_reword .clean _ nofun fun _ => rfl) ?_ ?_
  · rintro stop seen (⟨_, heq, -⟩ | ⟨e, -, rfl⟩)
    · cases heq
    · exact Or.inr ⟨nofun, .unknown e⟩
  · rintro clean seen (⟨_, heq, rfl⟩ | ⟨_, heq, -⟩) <;> cases heq
    cases clean with
    | false => exact Tells.fail (Or.inr ⟨nofun, .unclean⟩)
    | true =>
      refine Tells.mono (Tells.call_reword .place _ (by nofun) fun _ => rfl) fun r seen h => ?_
      rcases h with ⟨name, rfl, rfl⟩ | ⟨e, rfl, rfl⟩
      · exact Or.inl ⟨name, rfl, rfl⟩
      · exact Or.inr ⟨nofun, .lost e⟩

/-- What was done in order, and what is put back after it. -/
theorem guarding_ensuring {path : Path} {pre post : Option Side} {s s₁ : Session σ} {name : Head}
    {body : Run σ α}
    (hbody : TellsFrom b.vcs (fun _ seen => seen ≠ [] ∧ ∃ first second, seen = first ++ second ∧
      b.InOrder linter pre post (b.Visited linter path name s) first second) body s₁) :
    TellsFrom b.vcs (fun _ seen => b.Guarding linter path pre post s (Settled.asked name ++ seen))
      (body.ensuring (b.restore name)) s₁ := by
  refine hbody.ensuring (tells_restore name) ?_
  rintro _ _ _ _ _ ⟨hne, first, second, rfl, horder⟩ ⟨⟨answer, rfl⟩, -⟩
  rw [← List.append_assoc]
  exact .moved name answer horder hne

/-- A body that lints sides in the tree, between its announcement and what is put back. -/
theorem guarding_inTree {path : Path} {pre post : Option Side} {s s₁ : Session σ} {name : Head}
    {body : Run σ α} (side : Side)
    (hbody : ∀ s₂, (b.announce linter side).exec s₁ = (.ok (), s₂) →
      TellsFrom b.vcs (fun _ seen => seen ≠ [] ∧ ∃ first second, seen = first ++ second ∧
        b.InOrder linter pre post (b.Visited linter path name s) first second) body s₂) :
    TellsFrom b.vcs (fun _ seen => b.Guarding linter path pre post s (Settled.asked name ++ seen))
      (b.announce linter side >>= fun _ => body.ensuring (b.restore name)) s₁ := by
  refine TellsFrom.bind ((tells_announce linter side).from s₁) ?_ ?_
  · rintro stop _ s₂ - rfl
    rw [List.append_nil]
    exact .idle name
  · rintro _ _ s₂ hannounce rfl
    exact guarding_ensuring (hbody s₂ hannounce)

/-- A linter that needs the tree works under a guard. -/
theorem guarding_lintInTree (hlinter : linter.RunsTools b.vcs) (htree : linter.needsCheckout = true)
    (path : Path) (pre post : Option Side) (s : Session σ) :
    TellsFrom b.vcs (fun _ seen => b.Guarding linter path pre post s seen)
      (b.lintInTree linter path pre post) s := by
  unfold lintInTree
  refine TellsFrom.bind ((refusal_or_asked_holdTree path).from s) ?_ ?_
  · rintro stop seen s₁ - (⟨_, heq, -⟩ | ⟨-, hrefusal⟩)
    · cases heq
    · exact .refused hrefusal
  · rintro name seen s₁ hhold (⟨_, heq, rfl⟩ | ⟨hne, -⟩)
    · cases heq
      rcases pre with _ | before <;> rcases post with _ | after
      · refine (Tells.pure ?_).from s₁
        rw [List.append_nil]
        exact .idle name
      · refine guarding_inTree after fun s₂ _ => (Tells.bind (tends_visit hlinter htree after)
          (fun _ seen h => ?_) fun t seen h => Tells.pure ?_).from s₂
        · exact ⟨h.2, [], seen, rfl, .missing, h.1, nofun⟩
        · rw [List.append_nil]
          exact ⟨h.2, [], seen, rfl, .missing, h.1, nofun⟩
      · refine guarding_inTree before fun s₂ _ => (Tells.bind (tends_visit hlinter htree before)
          (fun _ seen h => ?_) fun t seen h => Tells.pure ?_).from s₂
        · exact ⟨h.2, seen, [], (List.append_nil _).symm, h.1, .missing, fun hne => absurd rfl hne⟩
        · exact ⟨by simpa using h.2, seen, [], rfl, h.1, .missing, fun hne => absurd rfl hne⟩
      · refine guarding_inTree before fun s₂ hannounce =>
          TellsFrom.bind ((tends_visit hlinter htree before).from s₂) ?_ ?_
        · rintro _ seen _ - ⟨htends, hne⟩
          exact ⟨hne, seen, [], (List.append_nil _).symm, htends, .untried after, fun hne => absurd rfl hne⟩
        · rintro t first s₃ hvisit ⟨htends, hne⟩
          -- the second side is only tended when the first was linted
          have hvisited : b.Visited linter path name s before :=
            ⟨s₁, t, s₃, hhold, Run.bind_eq_ok_iff.2 ⟨(), s₂, hannounce, hvisit⟩⟩
          have hboth {second : List Call} (hsecond : b.Tends linter (some after) second) :
              first ++ second ≠ [] ∧ ∃ first' second', first ++ second = first' ++ second' ∧
                b.InOrder linter (some before) (some after) (b.Visited linter path name s) first' second' := by
            refine ⟨by simp [hne], first, second, rfl, htends, hsecond, fun _ side hside => ?_⟩
            cases hside
            exact hvisited
          refine (Tells.bind (tells_announce linter after) (fun _ _ h => ?_) fun _ _ h => ?_).from s₃
          · subst h
            exact hboth (.untried after)
          · subst h
            refine Tells.bind (tends_visit hlinter htree after) (fun _ _ h => hboth h.1) fun t' second h => ?_
            refine Tells.pure ?_
            rw [List.append_nil]
            exact hboth h.1
    · exact absurd rfl (hne name)

/-- A linter that needs no tree works on copies. -/
theorem copying_lintCopies (hlinter : linter.RunsTools b.vcs) (hcopy : linter.needsCheckout = false)
    (pre post : Option Side) (s : Session σ) :
    TellsFrom b.vcs (fun _ seen => b.Copying linter pre post s seen) (do
      let before ← b.lintCopy? linter pre
      return (before, ← b.lintCopy? linter post)) s := by
  have htends : ∀ side?, Tells b.vcs (fun _ seen => b.Tends linter side? seen) (b.lintCopy? linter side?)
    | none => Tells.pure .missing
    | some side => tends_lintCopy hlinter hcopy side
  have huntended : ∀ side?, b.Tends linter side? []
    | none => .missing
    | some side => .untried side
  refine TellsFrom.bind ((htends pre).from s) ?_ ?_
  · rintro _ seen _ - hseen
    exact ⟨seen, [], (List.append_nil _).symm, hseen, huntended post, fun hne => absurd rfl hne⟩
  · rintro t first s₁ hfirst hseen
    have hboth {second : List Call} (hsecond : b.Tends linter post second) :
        b.Copying linter pre post s (first ++ second) := by
      refine ⟨first, second, rfl, hseen, hsecond, fun _ side hside => ?_⟩
      subst hside
      exact ⟨t, s₁, hfirst⟩
    refine (Tells.bind (htends post) (fun _ _ h => hboth h) fun t' second h => Tells.pure ?_).from s₁
    rw [List.append_nil]
    exact hboth h

/-! ## Tools in the tree -/

/-- A tool that a linter runs on the file of a side, and the commit of that side. -/
def RunsAt (b : Bench σ) (linter : Linter σ) (pre post : Option Side) (target : Head) (program : String)
    (arguments : List Bytes) : Prop :=
  ∃ side, (pre = some side ∨ post = some side) ∧ target = .detached side.commit ∧
    linter.Runs (b.vcs.workdir.join side.path) program arguments

theorem runsWhile_of_not_tool {P : Head → String → List Bytes → Prop} {last : Option Head} {seen : List Call}
    (h : ∀ call ∈ seen, ∀ program arguments, call.1 ≠ .tool program arguments) : RunsWhile P last seen := by
  induction seen generalizing last with
  | nil => trivial
  | cons call rest ih =>
    refine ⟨fun program arguments heq => absurd heq (h call List.mem_cons_self program arguments), ?_⟩
    exact ih fun call' hcall' => h call' (List.mem_cons_of_mem call hcall')

/-- Tools move nothing. -/
theorem runsWhile_of_ran {P : Head → String → List Bytes → Prop} {target : Head} {file : Path}
    {runs : List Call} (hruns : linter.Ran file runs)
    (hP : ∀ program arguments, linter.Runs file program arguments → P target program arguments) :
    RunsWhile P (some target) runs := by
  induction runs with
  | nil => trivial
  | cons call rest ih =>
    obtain ⟨program, arguments, rfl, hrun⟩ := hruns call List.mem_cons_self
    refine ⟨fun program' arguments' heq => ?_, ih fun call' hcall' => hruns call' (List.mem_cons_of_mem _ hcall')⟩
    cases heq
    exact ⟨target, rfl, hP program arguments hrun⟩

/-- The tools for a side run after its commit was checked out. -/
theorem Tends.runsWhile {pre post side? : Option Side} {seen : List Call} (h : b.Tends linter side? seen)
    (htree : linter.needsCheckout = true) (hside : ∀ side, side? = some side → pre = some side ∨ post = some side)
    (last : Option Head) : RunsWhile (b.RunsAt linter pre post) last seen := by
  cases h with
  | missing => trivial
  | untried => trivial
  | refused side e =>
    refine runsWhile_of_not_tool fun call hcall => ?_
    obtain rfl := List.mem_singleton.1 hcall
    rw [Linter.supply, if_pos htree]
    nofun
  | @supplied side file runs hfile hruns =>
    rw [Presents, if_pos htree] at hfile
    subst hfile
    rw [Linter.supply, if_pos htree]
    refine ⟨nofun, runsWhile_of_ran hruns fun program arguments hrun => ?_⟩
    exact ⟨side, hside side rfl, rfl, hrun⟩

/-- **A guard runs every tool at the commit of its side**: when a tool is run, the last checkout that
succeeded since the guard began is that of the commit of a side, and the tool is run on the file of that side
in the working tree. -/
theorem Guarding.runsWhile {path : Path} {pre post : Option Side} {s : Session σ} {seen : List Call}
    (h : b.Guarding linter path pre post s seen) (htree : linter.needsCheckout = true) :
    RunsWhile (b.RunsAt linter pre post) none seen := by
  cases h with
  | refused h => exact runsWhile_of_not_tool h.not_tool
  | idle name => exact ⟨nofun, nofun, trivial⟩
  | moved name answer h =>
    rw [runsWhile_append, runsWhile_append, runsWhile_append]
    refine ⟨⟨⟨nofun, nofun, trivial⟩, h.tends_pre.runsWhile htree (fun _ => Or.inl) _,
      h.tends_post.runsWhile htree (fun _ => Or.inr) _⟩, nofun, trivial⟩

/-! ## One change -/

/-- What is called for a change from a session on. -/
structure Handles (b : Bench σ) (options : Options (Linter σ)) (source target : CommitId) (s : Session σ)
    (change : Change) (seen : List Call) : Prop where
  /-- A change that is passed by costs no call at all. -/
  idle : change.kind = .unchanged ∨ options.routing.select change.path options.language = none → seen = []
  copying : ∀ linter, change.kind ≠ .unchanged →
    options.routing.select change.path options.language = some linter → linter.needsCheckout = false →
    b.Copying linter (Side.before change source) (Side.after change target)
      (b.box.noted .contrast .debug (.lintingFile change.path change.kind linter.name) s) seen
  /-- There is no guard for a change that cannot be counted any more. -/
  guarding : ∀ linter, change.kind ≠ .unchanged →
    options.routing.select change.path options.language = some linter → linter.needsCheckout = true →
    seen = [] ∨
      b.Guarding linter change.path (Side.before change source) (Side.after change target)
        (b.box.noted .contrast .debug (.lintingFile change.path change.kind linter.name) s) seen ∧
      RunsWhile (b.RunsAt linter (Side.before change source) (Side.after change target)) none seen

end Bench

/-- The linters of a contrast run tools, and call version control for nothing. -/
def Options.RunTools (options : Options (Linter σ)) (vcs : VersionControl σ) : Prop :=
  ∀ path linter, options.routing.select path options.language = some linter → linter.RunsTools vcs

/-- An adapter runs its own program, with the arguments for its file. -/
theorem Adapter.eq_of_runs (vcs : VersionControl σ) {a : Adapter} {box : Toolbox σ} {file : Path}
    {program : String} {arguments : List Bytes} (h : (a.linter box).Runs file program arguments) :
    program = a.program ∧ ∃ report, arguments = a.arguments report file := by
  obtain ⟨now, hmem⟩ := h
  obtain ⟨events, ht, -, hseen⟩ := a.tells_lint vcs box file now
  rw [Adapter.linter, ht, List.drop_left] at hmem
  obtain ⟨report, heq⟩ := hseen _ (vcs.mem_calls_of_tool hmem)
  cases heq
  exact ⟨rfl, report, rfl⟩

/-- Adapters are linters of this kind. -/
theorem Options.runTools_equip (options : Options Adapter) (box : Toolbox σ) (vcs : VersionControl σ) :
    (options.equip box).RunTools vcs := by
  intro path linter hsel
  obtain ⟨a, rfl⟩ := Options.exists_adapter_of_select hsel
  exact a.onlyTools_lint vcs box

namespace Bench

variable {b : Bench σ} {linter : Linter σ} {options : Options (Linter σ)} {source target : CommitId}

/-- What follows the linting of a change is no call. -/
theorem tells_contrastFile {X : List Call → Prop} {policy : Policy} {report : Report} {change : Change}
    {s : Session σ}
    (h : TellsFrom b.vcs (fun _ seen => X seen)
      (b.lintChange linter change report.source report.target) s) :
    TellsFrom b.vcs (fun _ seen => X seen) (b.contrastFile policy report change linter) s := by
  unfold contrastFile
  refine TellsFrom.bind h.attempt (fun _ _ _ _ h => h) fun answer seen s₁ _ hseen => ?_
  have hthen {x : Run σ Report} (hx : Tells b.vcs (fun _ seen => seen = []) x) :
      TellsFrom b.vcs (fun _ seen' => X (seen ++ seen')) x s₁ := by
    refine (hx.from s₁).mono fun _ seen' h => ?_
    rwa [h, List.append_nil]
  refine hthen ?_
  rcases answer with e | ⟨pre, post⟩
  · dsimp only
    split
    · refine Tells.bind (Φ := fun _ seen => seen = []) (Tells.notify_pure rfl) (fun _ _ h => h) ?_
      rintro _ _ rfl
      exact Tells.pure rfl
    · exact Tells.fail rfl
  · refine Tells.bind (Φ := fun _ seen => seen = []) (Tells.need (fun _ _ => rfl) fun _ => rfl) (fun _ _ h => h) ?_
    rintro _ _ rfl
    exact Tells.need (fun _ _ => rfl) fun _ => rfl

/-- Linting a change follows the strategy of its linter. -/
theorem tells_lintChange (hlinter : linter.RunsTools b.vcs) (change : Change) (s : Session σ) :
    TellsFrom b.vcs (fun _ seen =>
      (linter.needsCheckout = false →
        b.Copying linter (Side.before change source) (Side.after change target) s seen) ∧
      (linter.needsCheckout = true →
        b.Guarding linter change.path (Side.before change source) (Side.after change target) s seen))
      (b.lintChange linter change source target) s := by
  unfold lintChange
  dsimp only
  split
  · next htree =>
    refine (guarding_lintInTree hlinter htree change.path _ _ s).mono fun _ _ h => ⟨fun hcopy => ?_, fun _ => h⟩
    rw [hcopy] at htree
    cases htree
  · next htree =>
    refine (copying_lintCopies hlinter (Bool.eq_false_iff.2 htree) _ _ s).mono fun _ _ h =>
      ⟨fun _ => h, fun htree' => absurd htree' htree⟩

/-- A change that causes no call is handled in each of the three ways. -/
theorem handles_nil (change : Change) (s : Session σ) : b.Handles options source target s change [] := by
  have hcopying : ∀ linter s, b.Copying linter (Side.before change source) (Side.after change target) s [] :=
    fun linter s => by
      have htends : ∀ side?, b.Tends linter side? []
        | none => .missing
        | some side => .untried side
      exact ⟨[], [], rfl, htends _, htends _, fun hne => absurd rfl hne⟩
  exact ⟨fun _ => rfl, fun _ _ _ _ => hcopying _ _, fun _ _ _ _ => Or.inl rfl⟩

/-- A change with a linter is handled as the strategy of that linter says. -/
theorem handles_of_select {change : Change} {s s₁ : Session σ} {seen : List Call} (hkind : change.kind ≠ .unchanged)
    (hsel : options.routing.select change.path options.language = some linter)
    (hnoted : s₁ = b.box.noted .contrast .debug (.lintingFile change.path change.kind linter.name) s)
    (hcopy : linter.needsCheckout = false →
      b.Copying linter (Side.before change source) (Side.after change target) s₁ seen)
    (htree : linter.needsCheckout = true →
      b.Guarding linter change.path (Side.before change source) (Side.after change target) s₁ seen) :
    b.Handles options source target s change seen := by
  subst hnoted
  refine ⟨fun hidle => ?_, fun linter' _ hsel' hcopy' => ?_, fun linter' _ hsel' htree' => Or.inr ?_⟩
  · rcases hidle with hkind' | hnone
    · exact absurd hkind' hkind
    · rw [hsel] at hnone
      cases hnone
  · obtain rfl := Option.some.inj (hsel.symm.trans hsel')
    exact hcopy hcopy'
  · obtain rfl := Option.some.inj (hsel.symm.trans hsel')
    exact ⟨htree htree', (htree htree').runsWhile htree'⟩

/-- Saying that a change is passed over causes no call. -/
theorem tells_pass (n : Notice) (r : Report) : Tells b.vcs (fun _ seen => seen = [])
    (b.box.notify .contrast .debug (pure n) >>= fun _ => pure r) := by
  refine Tells.bind (Φ := fun _ seen => seen = []) (Tells.notify_pure rfl) (fun _ _ h => h) ?_
  rintro _ _ rfl
  exact Tells.pure rfl

/-- **One more change** is handled in one of the three ways, whatever becomes of it. -/
theorem handles_contrastChange (hlinters : options.RunTools b.vcs) (report : Report) (change : Change)
    (s : Session σ) :
    TellsFrom b.vcs (fun _ seen => b.Handles options report.source report.target s change seen)
      (b.contrastChange options report change) s := by
  have hidle (n : Notice) (r : Report) : TellsFrom b.vcs
      (fun _ seen => b.Handles options report.source report.target s change ([] ++ seen))
      (b.box.notify .contrast .debug (pure n) >>= fun _ => pure r) s := by
    refine ((tells_pass n r).from s).mono ?_
    rintro _ _ rfl
    exact handles_nil change s
  unfold contrastChange
  refine TellsFrom.bind (Φ := fun _ seen => seen = []) ((Tells.need (fun _ _ => rfl) fun _ => rfl).from s)
    ?_ ?_
  · rintro _ _ _ - rfl
    exact handles_nil change s
  rintro r _ s₁ hcount rfl
  obtain ⟨hr, rfl⟩ := Run.need_eq_ok_iff.1 hcount
  obtain ⟨hs, ht⟩ : r.source = report.source ∧ r.target = report.target := by
    obtain rfl := Report.eq_of_countFile hr
    exact ⟨rfl, rfl⟩
  split
  · exact hidle _ r
  next hkind =>
  cases hsel : options.routing.select change.path options.language with
  | none => exact hidle _ r
  | some linter =>
    dsimp only
    refine TellsFrom.bind (Φ := fun _ seen => seen = []) ((Tells.notify_pure rfl).from s) ?_ ?_
    · rintro _ _ _ - rfl
      exact handles_nil change s
    rintro _ _ _ hnotify rfl
    rw [Toolbox.exec_notify_pure] at hnotify
    cases hnotify
    refine (tells_contrastFile (tells_lintChange (hlinters change.path linter hsel) change
      (b.box.noted .contrast .debug (.lintingFile change.path change.kind linter.name) s))).mono
      fun _ seen h => ?_
    rw [hs, ht] at h
    exact handles_of_select hkind hsel rfl h.1 h.2

/-! ## All changes -/

/-- The calls of a contrast on its changes: one block for each change that it came to, and none after the change
at which it stopped. A block starts at the session where the one before it ended. -/
inductive Course (b : Bench σ) (options : Options (Linter σ)) (source target : CommitId) :
    Report → Session σ → List Change → List Call → Prop
  | nil (report : Report) (s : Session σ) : Course b options source target report s [] []
  | cons {report report' : Report} {s s' : Session σ} {change : Change} {changes : List Change}
    {seen rest : List Call} (hstep : (b.contrastChange options report change).exec s = (.ok report', s'))
    (hbetween : b.vcs.Between s s' seen) (hblock : b.Handles options source target s change seen)
    (hrest : Course b options source target report' s' changes rest) :
    Course b options source target report s (change :: changes) (seen ++ rest)
  | stop {report : Report} {s s' : Session σ} {change : Change} {changes : List Change} {seen : List Call}
    {stop : Stop} (hstep : (b.contrastChange options report change).exec s = (.error stop, s'))
    (hbetween : b.vcs.Between s s' seen) (hblock : b.Handles options source target s change seen) :
    Course b options source target report s (change :: changes) seen

/-- A contrast takes its course, by induction on the changes. -/
theorem course_contrastAll (hlinters : options.RunTools b.vcs) (changes : List Change) (report : Report)
    (hs : report.source = source) (ht : report.target = target) (s : Session σ) :
    TellsFrom b.vcs (fun _ seen => b.Course options source target report s changes seen)
      (b.contrastAll options report changes) s := by
  induction changes generalizing report s with
  | nil => exact (Tells.pure (.nil report s)).from s
  | cons change changes ih =>
    obtain ⟨seen, hbetween, hblock⟩ := handles_contrastChange hlinters report change s
    rw [hs, ht] at hblock
    have hstep : TellsFrom b.vcs (fun _ seen' => seen' = seen) (b.contrastChange options report change) s :=
      ⟨seen, hbetween, rfl⟩
    refine TellsFrom.bind hstep ?_ ?_
    · rintro stop _ s' hexec rfl
      rw [hexec] at hbetween
      exact .stop hexec hbetween hblock
    · rintro report' _ s' hexec rfl
      rw [hexec] at hbetween
      -- a step keeps the commits of its report
      obtain ⟨_, -, henter⟩ := exec_contrastChange_ok_iff.1 hexec
      obtain ⟨hs', ht'⟩ := Report.commits_of_enter henter
      exact (ih report' (hs'.trans hs) (ht'.trans ht) s').mono fun _ _ h => .cons hexec hbetween hblock h

/-- Once the changes are known, the calls are those on the changes: saying how many files there were costs none. -/
theorem course_complete (hlinters : options.RunTools b.vcs) (source target : CommitId) (changes : List Change)
    (s : Session σ) :
    TellsFrom b.vcs (fun _ seen => b.Course options source target (Report.start source target) s changes seen) (do
      let report ← b.contrastAll options (Report.start source target) changes
      b.box.notify .contrast .info do
        return .complete report.files.length report.failures.length
          (← Run.need .overflow report.netTotal.total)
      return report) s := by
  refine TellsFrom.bind (course_contrastAll hlinters changes _ rfl rfl s) (fun _ _ _ _ h => h)
    fun report seen s₁ _ h => ?_
  refine (Tells.bind (Φ := fun _ seen => seen = []) (Tells.notify .overflow ?_ rfl rfl) ?_ ?_).from s₁
  · exact Tells.mute_bind (Tells.mute_need _ _) fun _ => Tells.mute_pure _
  · rintro _ _ rfl
    rwa [List.append_nil]
  · rintro _ _ rfl
    refine Tells.pure ?_
    rwa [List.append_nil, List.append_nil]

/-- **The order of calls in every contrast**, whatever is answered and however it ends. It asks for the changes
first. If it gets them, the rest are blocks, one for each change that it came to, in order (`Course`). A change
that is passed by costs no call. A change whose linter needs no tree costs two copies at most, the first side
before the second, and the second only if the first was linted (`Copying`). A change whose linter needs the tree
is handled under a guard (`Guarding`): it asks whether the tree is clean and where HEAD is, and does nothing more
if it gets no good answer; it checks out each side that exists once at most, in order and the second only if the
first was linted; and it checks out last what it was told of HEAD if and only if it tried a checkout. Under a
guard, every tool runs while the last successful checkout of the guard is of the commit of its side, and on the
file of that side in the working tree (`RunsAt`). -/
theorem discipline_of_contrast (b : Bench σ) (options : Options (Linter σ)) (hlinters : options.RunTools b.vcs)
    (source target : CommitId) (s : Session σ) :
    TellsFrom b.vcs (fun _ seen =>
      seen = [] ∨ (∃ e, seen = [(.changes source target, .fault e)]) ∨
      ∃ changes s₁ rest, (b.vcs.changes source target s.world).1 = .ok changes ∧
        s₁.world = (b.vcs.changes source target s.world).2 ∧
        seen = (.changes source target, .done) :: rest ∧
        b.Course options source target (Report.start source target) s₁ changes rest)
      (b.contrast options source target) s := by
  unfold contrast
  refine TellsFrom.bind (Φ := fun _ seen => seen = [])
    ((Tells.notify .splitCharacter ?_ rfl rfl).from s) ?_ ?_
  · exact Tells.mute_bind (Tells.mute_need _ _) fun _ =>
      Tells.mute_bind (Tells.mute_need _ _) fun _ => Tells.mute_pure _
  · rintro _ _ _ - rfl
    exact Or.inl rfl
  · rintro _ _ s₀ hopen rfl
    have hworld : s₀.world = s.world := (noticed_of_opening hopen).world
    refine TellsFrom.bind (Φ := fun r seen => ∃ answer : Except Failure (List Change),
      r = answer.mapError .failed ∧ seen = [(.changes source target, .of (fun _ => .done) answer)])
      ((Tells.call (by nofun) (fun _ => rfl) fun answer => ⟨answer, rfl, rfl⟩).from s₀) ?_ ?_
    · rintro stop _ _ - ⟨e | changes, heq, rfl⟩ <;> cases heq
      exact Or.inr (Or.inl ⟨e, rfl⟩)
    · rintro changes _ s₁ hcall ⟨e | changes', heq, rfl⟩ <;> cases heq
      obtain ⟨hanswer, hs₁⟩ := Run.call_eq_ok_iff.1 hcall
      rw [hworld] at hanswer hs₁
      exact (course_complete hlinters source target changes s₁).mono fun _ rest h =>
        Or.inr (Or.inr ⟨changes, s₁, rest, hanswer, congrArg Session.world hs₁, rfl, h⟩)

/-- A bench with one modified file, whose second version cannot be checked out. -/
def halted : Bench Head :=
  { placid [.modified (.ofString "a.c") ⟨"1"⟩ (.ofString "a.c") ⟨"2"⟩ false] with
    vcs := { (placid [.modified (.ofString "a.c") ⟨"1"⟩ (.ofString "a.c") ⟨"2"⟩ false]).vcs with
      checkout := fun target head =>
        if target = .detached ⟨"t"⟩ then (.error (.git "object not found"), head) else (.ok (), target) } }

/-- The first version is linted, the second is not, and the branch is checked out again. -/
theorem discipline_of_contrast_of_halted :
    ∃ s₁ rest, halted.Course (Options.equip ⟨none, Routing.empty.add ".c" (.ofTool .cppcheck), .degrade⟩ halted.box)
        ⟨"s"⟩ ⟨"t"⟩ (Report.start ⟨"s"⟩ ⟨"t"⟩) s₁ [.modified (.ofString "a.c") ⟨"1"⟩ (.ofString "a.c") ⟨"2"⟩ false]
        rest ∧
      rest = [(.isClean, .clean true), (.head, .place (.branch "main")), (.checkout (.detached ⟨"s"⟩), .done),
        (.tool "cppcheck" ((Adapter.ofTool .cppcheck).arguments none (.ofString "/work/a.c")), .done),
        (.checkout (.detached ⟨"t"⟩), .fault (.git "object not found")), (.checkout (.branch "main"), .done)] := by
  obtain ⟨seen, ⟨events, htrace, -, hseen⟩, h⟩ := discipline_of_contrast halted
    (Options.equip ⟨none, Routing.empty.add ".c" (.ofTool .cppcheck), .degrade⟩ halted.box)
    (Options.runTools_equip _ _ _) ⟨"s"⟩ ⟨"t"⟩ (Session.start (.branch "main"))
  have hevents : events = [.changes ⟨"s"⟩ ⟨"t"⟩, .isClean, .head, .checkout (.detached ⟨"s"⟩),
      .tool "cppcheck" ((Adapter.ofTool .cppcheck).arguments none (.ofString "/work/a.c")),
      .checkout (.detached ⟨"t"⟩), .checkout (.branch "main")] := htrace.symm
  subst hevents
  rcases h with rfl | ⟨e, rfl⟩ | ⟨changes, s₁, rest, hchanges, -, rfl, hcourse⟩
  · cases hseen
  · cases hseen
  · cases hchanges
    exact ⟨s₁, rest, hcourse, (List.cons.inj hseen).2.symm⟩

end Bench

end LintDelta
