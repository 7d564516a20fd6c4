import LintDelta.Proofs.Contrast.Walk

/-!
# What a contrast leaves alone

A contrast does little by itself: it notes messages, calls version control, runs tools, and has them
write to temporary files. So a relation of sessions that each of these keeps is kept by every part of a
contrast, and by the whole, however it ends. `Frame` says what has to be known of the relation, and the
lemmas follow the program from a single tool up to `keeps_contrast`.

The first use is `temps_of_contrast`: no temporary file is left.
-/

namespace LintDelta

open Run (Keeps Chain)

variable {σ : Type}

/-! ## The two ways to lint a change -/

namespace Bench

variable {R : Session σ → Session σ → Prop} (c : Chain R) {b : Bench σ} {linter : Linter σ}
include c

/-- What the copies and the tree keep, linting a change keeps. -/
theorem keeps_lintChange {change : Change} {source target : CommitId}
    (hcopy : ∀ side, Side.before change source = some side ∨ Side.after change target = some side →
      Keeps R (b.lintCopy linter side))
    (htree : Keeps R (b.lintInTree linter change.path (Side.before change source) (Side.after change target))) :
    Keeps R (b.lintChange linter change source target) := by
  have hcopy? : ∀ side?, (∀ side, side? = some side →
      Side.before change source = some side ∨ Side.after change target = some side) →
      Keeps R (b.lintCopy? linter side?)
    | none, _ => c.pure _
    | some side, h => hcopy side (h side rfl)
  unfold lintChange
  dsimp only
  split
  · exact htree
  · exact c.bind (hcopy? _ fun _ => Or.inl) fun _ => c.bind (hcopy? _ fun _ => Or.inr) fun _ => c.pure _

theorem keeps_announce (hnote : ∀ n, Keeps R (Run.record (.notice n))) (side : Side) :
    Keeps R (b.announce linter side) :=
  c.notify (c.bind (c.need _ _) fun _ => c.pure _) hnote

section Tree

variable (hcall : ∀ {α : Type} (e : Event) (f : σ → Except Failure α × σ),
  (∀ program arguments, e ≠ .tool program arguments) → Keeps R (Run.call e f))
include hcall

theorem keeps_holdTree (path : Path) : Keeps R (b.holdTree path) := by
  refine c.bind ((hcall .isClean _ nofun).reword _) fun clean => ?_
  cases clean
  · exact c.fail _
  · exact (hcall .head _ nofun).reword _

variable (hnote : ∀ n, Keeps R (Run.record (.notice n)))
include hnote

theorem keeps_restore (initial : Head) : Keeps R (b.restore initial) := by
  refine c.bind (hcall (.checkout initial) _ nofun).attempt fun answer => ?_
  cases answer
  · exact c.notify (c.bind (c.need _ _) fun _ => c.pure _) hnote
  · exact c.pure _

/-- The tree keeps what its calls keep and the lintings of the sides in it. -/
theorem keeps_lintInTree {path : Path} {pre post : Option Side}
    (hlint : ∀ side, pre = some side ∨ post = some side →
      Keeps R (lintAs side linter (b.vcs.workdir.join side.path))) :
    Keeps R (b.lintInTree linter path pre post) := by
  have hvisit : ∀ side, pre = some side ∨ post = some side → Keeps R (b.visit linter side) := by
    intro side hside
    exact c.bind ((hcall (.checkout _) _ nofun).reword _) fun _ => hlint side hside
  have hannounce (side : Side) : Keeps R (b.announce linter side) := keeps_announce c hnote side
  refine c.bind (keeps_holdTree c hcall path) fun initial => ?_
  have hrestore : Keeps R (b.restore initial) := keeps_restore c hcall hnote initial
  cases pre with
  | none =>
    cases post with
    | none => exact c.pure _
    | some after =>
      exact c.bind (hannounce after) fun _ =>
        c.ensuring (c.bind (hvisit after (Or.inr rfl)) fun _ => c.pure _) hrestore
  | some before =>
    cases post with
    | none =>
      exact c.bind (hannounce before) fun _ =>
        c.ensuring (c.bind (hvisit before (Or.inl rfl)) fun _ => c.pure _) hrestore
    | some after =>
      refine c.bind (hannounce before) fun _ => c.ensuring ?_ hrestore
      exact c.bind (hvisit before (Or.inl rfl)) fun _ => c.bind (hannounce after) fun _ =>
        c.bind (hvisit after (Or.inr rfl)) fun _ => c.pure _

end Tree

end Bench

/-! ## Relations that tools keep -/

/-- A relation that running tools keeps. While a temporary file lives, `inner` is kept. -/
structure Frame (R inner : Session σ → Session σ → Prop) : Prop where
  chain : Chain R
  chain_inner : Chain inner
  inner_of : ∀ {s s'}, R s s' → inner s s'
  note : ∀ n, Keeps R (Run.record (.notice n))
  tool : ∀ program arguments, Keeps R (Run.record (.tool program arguments))
  fill : ∀ content, Keeps inner (TempDirectory.fill content)
  file : ∀ {s s' : Session σ} {f : TempFile}, inner { s with temps := f :: s.temps, made := s.made + 1 } s' →
    R s { s' with temps := s'.temps.drop 1 }

namespace Frame

variable {R inner : Session σ → Session σ → Prop} (fr : Frame R inner)
include fr

theorem withFile {α : Type} {dir : TempDirectory} {start ending : String} {onFailure : String → Failure}
    {body : Path → Run σ α} (hbody : ∀ path, Keeps inner (body path)) :
    Keeps R (dir.withFile start ending onFailure body) := fun s => by
  rw [TempDirectory.exec_withFile]
  dsimp only
  split
  · exact fr.file (hbody _ _)
  · exact fr.chain.refl s

theorem notify {box : Toolbox σ} {origin : Origin} {level : Level} {message : Run σ Notice}
    (hm : Keeps R message) : Keeps R (box.notify origin level message) :=
  fr.chain.notify hm fr.note

/-! ### Tools -/

theorem execute (box : Toolbox σ) (linter : String) (command : Command) (path : Path) :
    Keeps R (box.execute linter command path) := by
  refine fr.chain.bind (fr.notify (fr.chain.pure _)) fun _ => fr.chain.bind fr.chain.get fun s => ?_
  dsimp only
  split
  · exact fr.chain.bind (fr.tool _ _) fun _ => fr.chain.pure _
  · exact fr.chain.fail _

theorem lintWith (a : Adapter) (box : Toolbox σ) (path : Path) (report : Option Path) :
    Keeps R (a.lintWith box path report) :=
  fr.chain.bind (fr.execute box _ _ path) fun _ => fr.chain.ofExcept _

theorem lint (a : Adapter) (box : Toolbox σ) (path : Path) : Keeps R (a.lint box path) := by
  unfold Adapter.lint
  split
  · exact fr.withFile fun report => (fr.lintWith a box path (some report)).mono fr.inner_of
  · exact fr.lintWith a box path none

theorem lintAs (a : Adapter) (box : Toolbox σ) (side : Side) (file : Path) :
    Keeps R (Bench.lintAs side (a.linter box) file) :=
  (fr.lint a box file).reword _

/-! ### The two ways to lint a change -/

theorem lintCopy {b : Bench σ}
    (hblob : ∀ blob, Keeps R (Run.call (.readBlob blob) (b.vcs.readBlob blob))) (a : Adapter) (side : Side) :
    Keeps R (b.lintCopy (a.linter b.box) side) := by
  refine fr.withFile fun file => ?_
  refine fr.chain_inner.bind (((hblob _).reword _).mono fr.inner_of) fun content => ?_
  refine fr.chain_inner.bind (fr.fill content) fun _ => ?_
  refine fr.chain_inner.bind (Keeps.mono (fr.notify ?_) fr.inner_of) fun _ => ?_
  · exact fr.chain.bind (fr.chain.need _ _) fun _ => fr.chain.pure _
  · exact (fr.lintAs a b.box side file).mono fr.inner_of

theorem lintCopy? {b : Bench σ}
    (hblob : ∀ blob, Keeps R (Run.call (.readBlob blob) (b.vcs.readBlob blob))) (a : Adapter) :
    ∀ side, Keeps R (b.lintCopy? (a.linter b.box) side)
  | none => fr.chain.pure _
  | some side => fr.lintCopy hblob a side

theorem announce (b : Bench σ) (linter : Linter σ) (side : Side) : Keeps R (b.announce linter side) :=
  Bench.keeps_announce fr.chain fr.note side

theorem lintChange {b : Bench σ}
    (hblob : ∀ blob, Keeps R (Run.call (.readBlob blob) (b.vcs.readBlob blob))) (a : Adapter)
    {change : Change} {source target : CommitId}
    (htree : Keeps R (b.lintInTree (a.linter b.box) change.path (Side.before change source)
      (Side.after change target))) :
    Keeps R (b.lintChange (a.linter b.box) change source target) :=
  Bench.keeps_lintChange fr.chain (fun side _ => fr.lintCopy hblob a side) htree

section Tree

variable {b : Bench σ}
  (hcall : ∀ {α : Type} (e : Event) (f : σ → Except Failure α × σ), Keeps R (Run.call e f))
include hcall

theorem visit (a : Adapter) (side : Side) : Keeps R (b.visit (a.linter b.box) side) :=
  fr.chain.bind ((hcall _ _).reword _) fun _ => fr.lintAs a b.box side _

theorem holdTree (path : Path) : Keeps R (b.holdTree path) :=
  Bench.keeps_holdTree fr.chain (fun e f _ => hcall e f) path

theorem restore (initial : Head) : Keeps R (b.restore initial) :=
  Bench.keeps_restore fr.chain (fun e f _ => hcall e f) fr.note initial

theorem lintInTree (a : Adapter) (path : Path) (pre post : Option Side) :
    Keeps R (b.lintInTree (a.linter b.box) path pre post) :=
  Bench.keeps_lintInTree fr.chain (fun e f _ => hcall e f) fr.note fun side _ => fr.lintAs a b.box side _

end Tree

end Frame

/-! ## A whole contrast -/

namespace Bench

variable {R : Session σ → Session σ → Prop} (c : Chain R) (hnote : ∀ n, Keeps R (Run.record (.notice n)))
  {b : Bench σ} {options : Options (Linter σ)} {source target : CommitId}
include c hnote

theorem keeps_contrastFile {policy : Policy} {report : Report} {change : Change} {linter : Linter σ}
    (hlint : Keeps R (b.lintChange linter change report.source report.target)) :
    Keeps R (b.contrastFile policy report change linter) := by
  refine c.bind hlint.attempt fun answer => ?_
  rcases answer with e | ⟨pre, post⟩
  · dsimp only
    split
    · exact c.bind (c.notify (c.pure _) hnote) fun _ => c.pure _
    · exact c.fail _
  · exact c.bind (c.need _ _) fun _ => c.need _ _

theorem keeps_contrastChange {report : Report} {change : Change}
    (hlint : ∀ linter, options.routing.select change.path options.language = some linter →
      Keeps R (b.lintChange linter change report.source report.target)) :
    Keeps R (b.contrastChange options report change) := by
  refine c.bind_of_ok (c.need _ _) fun s r s' hr => ?_
  obtain ⟨hcount, -⟩ := Run.need_eq_ok_iff.1 hr
  obtain rfl := Report.eq_of_countFile hcount
  split
  · exact c.bind (c.notify (c.pure _) hnote) fun _ => c.pure _
  · split
    · exact c.bind (c.notify (c.pure _) hnote) fun _ => c.pure _
    · next linter hsel =>
      exact c.bind (c.notify (c.pure _) hnote) fun _ => keeps_contrastFile c hnote (hlint linter hsel)

/-- A walk over changes keeps what the linting of each of them keeps, by induction on the changes. -/
theorem keeps_contrastAll {changes : List Change}
    (hlint : ∀ change ∈ changes, ∀ linter, options.routing.select change.path options.language = some linter →
      Keeps R (b.lintChange linter change source target)) (report : Report) (hs : report.source = source)
    (ht : report.target = target) : Keeps R (b.contrastAll options report changes) := by
  induction changes generalizing report with
  | nil => exact c.pure report
  | cons change changes ih =>
    refine c.bind_of_ok (keeps_contrastChange c hnote fun linter hsel => ?_) fun s report' s' h => ?_
    · rw [hs, ht]
      exact hlint change List.mem_cons_self linter hsel
    · -- every report on the way is one between the two commits, and they decide what is linted
      obtain ⟨fate, -, henter⟩ := exec_contrastChange_ok_iff.1 h
      obtain ⟨hs', ht'⟩ := Report.commits_of_enter henter
      exact ih (fun change' hmem => hlint change' (List.mem_cons_of_mem _ hmem)) report' (hs'.trans hs)
        (ht'.trans ht)

/-- Once the changes are known, a contrast keeps what its notices and its lintings keep. -/
theorem keeps_complete {changes : List Change}
    (hlint : ∀ change ∈ changes, ∀ linter, options.routing.select change.path options.language = some linter →
      Keeps R (b.lintChange linter change source target)) :
    Keeps R (do
      let report ← b.contrastAll options (Report.start source target) changes
      b.box.notify .contrast .info do
        return .complete report.files.length report.failures.length
          (← Run.need .overflow report.netTotal.total)
      return report) :=
  c.bind (keeps_contrastAll c hnote hlint _ rfl rfl) fun _ =>
    c.bind (keeps_closing c hnote b.box _) fun _ => c.pure _

/-- **A contrast keeps** what its notices, its question for the changes and its lintings keep. -/
theorem keeps_contrast
    (hchanges : Keeps R (Run.call (.changes source target) (b.vcs.changes source target)))
    (hlint : ∀ path linter, options.routing.select path options.language = some linter →
      ∀ change, Keeps R (b.lintChange linter change source target)) :
    Keeps R (b.contrast options source target) :=
  c.bind (keeps_opening c hnote b.box source target) fun _ => c.bind hchanges fun _ =>
    keeps_complete c hnote fun change _ linter hsel => hlint change.path linter hsel change

end Bench

/-- The linters of a contrast with the tools are adapters, routed as before. -/
theorem Options.select_of_equip {options : Options Adapter} {box : Toolbox σ} {path : Path} {linter : Linter σ}
    (h : (options.equip box).routing.select path (options.equip box).language = some linter) :
    ∃ a : Adapter, options.routing.select path options.language = some a ∧ linter = a.linter box := by
  unfold Options.equip at h
  rw [Routing.select_map] at h
  obtain ⟨a, ha, rfl⟩ := Option.map_eq_some_iff.1 h
  exact ⟨a, ha, rfl⟩

theorem Options.exists_adapter_of_select {options : Options Adapter} {box : Toolbox σ} {path : Path}
    {linter : Linter σ}
    (h : (options.equip box).routing.select path (options.equip box).language = some linter) :
    ∃ a : Adapter, linter = a.linter box :=
  let ⟨a, _, heq⟩ := Options.select_of_equip h
  ⟨a, heq⟩

/-! ## Temporary files and the world -/

/-- Temporary files: outside of the life of one they stay the same, and in it all but the latest do. -/
theorem frame_temps : Frame (fun s s' : Session σ => s'.temps = s.temps)
    fun s s' => s'.temps.drop 1 = s.temps.drop 1 where
  chain := ⟨fun _ => rfl, fun h h' => h'.trans h⟩
  chain_inner := ⟨fun _ => rfl, fun h h' => h'.trans h⟩
  inner_of h := congrArg (List.drop 1) h
  note _ _ := rfl
  tool _ _ _ := rfl
  fill content s := by
    rcases s with ⟨world, _ | ⟨latest, others⟩, made, trace⟩ <;> rfl
  file h := h

/-- Tools leave the world alone. -/
theorem frame_world : Frame (fun s s' : Session σ => s'.world = s.world) fun s s' => s'.world = s.world where
  chain := Run.chain_world_eq
  chain_inner := Run.chain_world_eq
  inner_of h := h
  note _ _ := rfl
  tool _ _ _ := rfl
  fill content s := by
    rcases s with ⟨world, _ | ⟨latest, others⟩, made, trace⟩ <;> rfl
  file h := h

/-- **No temporary file is left** by a contrast with the tools, however it ends. -/
theorem Bench.temps_of_contrast (b : Bench σ) (options : Options Adapter) (source target : CommitId)
    (s : Session σ) : ((b.contrast (options.equip b.box) source target).exec s).2.temps = s.temps := by
  have hcall {α : Type} (e : Event) (f : σ → Except Failure α × σ) :
      Keeps (fun s s' : Session σ => s'.temps = s.temps) (Run.call e f) := Keeps.call fun _ => rfl
  refine keeps_contrast frame_temps.chain frame_temps.note (hcall _ _) (fun path linter hsel change => ?_) s
  obtain ⟨a, rfl⟩ := Options.exists_adapter_of_select hsel
  exact frame_temps.lintChange (fun _ => hcall _ _) a (frame_temps.lintInTree hcall a _ _ _)

end LintDelta
