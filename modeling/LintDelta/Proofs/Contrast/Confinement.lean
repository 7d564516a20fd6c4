import LintDelta.Proofs.Contrast.Linting
import LintDelta.Proofs.Path

/-!
# What a language keeps out

A contrast that is confined to a language looks for linters of the files of that language only. Which files
the tools see in the end is another matter: the linter is chosen by the path of the change, and the tools are
run on both sides of it. Every tool of a contrast is run on a file that stands for a side of a change that the
language covers (`Bench.Started`), and such a file has the extension of its side. So it belongs to the
language, with one exception: the old side of a modified file whose old path does not.

Main statement: `confinement_of_contrast`.
-/

namespace LintDelta

open Run (Keeps Chain Tells)
open Text (Bytes)

variable {σ α : Type}

/-! ## Tools that are started -/

/-- The trace goes on, and `Q` holds of every tool that was started. -/
def Starts (Q : String → List Bytes → Prop) (s s' : Session σ) : Prop :=
  ∃ events, s'.trace = s.trace ++ events ∧ ∀ program arguments, .tool program arguments ∈ events →
    Q program arguments

section Starts

variable {Q : String → List Bytes → Prop}

theorem starts_of_trace_eq {s s' : Session σ} (h : s'.trace = s.trace) : Starts Q s s' :=
  ⟨[], by rw [h, List.append_nil], nofun⟩

theorem chain_starts : Chain (Starts Q : Session σ → Session σ → Prop) where
  refl _ := starts_of_trace_eq rfl
  trans := by
    rintro s s₁ s₂ ⟨events, ht, hQ⟩ ⟨events', ht', hQ'⟩
    refine ⟨events ++ events', by rw [ht', ht, List.append_assoc], fun program arguments hmem => ?_⟩
    exact (List.mem_append.1 hmem).elim (hQ program arguments) (hQ' program arguments)

theorem starts_call (e : Event) (f : σ → Except Failure α × σ)
    (he : ∀ program arguments, e ≠ .tool program arguments) : Keeps (Starts Q) (Run.call e f) :=
  Keeps.call fun _ => ⟨[e], rfl, fun _ _ hmem => absurd (List.mem_singleton.1 hmem).symm (he _ _)⟩

theorem starts_note (n : Notice) : Keeps (Starts Q) (Run.record (.notice n) : Run σ Unit) := fun _ =>
  ⟨[.notice n], rfl, fun _ _ hmem => nomatch List.mem_singleton.1 hmem⟩

theorem starts_fill (content : Bytes) : Keeps (Starts Q) (TempDirectory.fill content : Run σ Unit) := fun s => by
  rcases s with ⟨world, _ | ⟨latest, others⟩, made, trace⟩ <;> exact starts_of_trace_eq rfl

/-- A temporary file gets a name of its directory. -/
theorem starts_withFile {dir : TempDirectory} {start ending : String} {onFailure : String → Failure}
    {body : Path → Run σ α}
    (hbody : ∀ made, Keeps (Starts Q) (body (dir.path.join (TempDirectory.name start (dir.token made) ending)))) :
    Keeps (Starts Q) (dir.withFile start ending onFailure body) := fun s => by
  rw [TempDirectory.exec_withFile]
  dsimp only
  split
  · exact hbody s.made _
  · exact chain_starts.refl s

/-- A command line ends with the file that is to be linted. -/
theorem Adapter.getLast?_arguments (a : Adapter) (report : Option Path) (file : Path) :
    (a.arguments report file).getLast? = some file.bytes := by
  unfold Adapter.arguments
  cases a.tool <;> exact List.getLast?_concat

/-- A command line tells the file that is to be linted. -/
theorem Adapter.file_inj {a a' : Adapter} {report report' : Option Path} {file file' : Path}
    (h : a.arguments report file = a'.arguments report' file') : file = file' := by
  have hlast := congrArg List.getLast? h
  rw [getLast?_arguments, getLast?_arguments] at hlast
  exact congrArg Path.mk (Option.some.inj hlast)

/-- An adapter starts its own program on the file that it is given. -/
theorem starts_lint (vcs : VersionControl σ) {a : Adapter} {box : Toolbox σ} {file : Path}
    (h : ∀ report, Q a.program (a.arguments report file)) : Keeps (Starts Q) (a.lint box file) := fun s => by
  obtain ⟨events, ht, -, hseen⟩ := a.tells_lint vcs box file s
  refine ⟨events, ht, fun program arguments hmem => ?_⟩
  obtain ⟨report, heq⟩ := hseen _ (vcs.mem_calls_of_tool hmem)
  cases heq
  exact h report

end Starts

/-! ## Files that stand for sides -/

/-- Only the old side of a modified file may have another path than its change. -/
theorem Side.Of.path_eq_or {side : Side} {change : Change} {source target : CommitId}
    (h : side.Of change source target) : side.path = change.path ∨ ∃ prePath preBlob postPath postBlob renamed,
      change = .modified prePath preBlob postPath postBlob renamed ∧ side = ⟨source, ⟨prePath, preBlob⟩⟩ := by
  cases change with
  | added path blob =>
    rcases h with hpre | hpost
    · cases hpre
    · cases hpost
      exact Or.inl rfl
  | deleted path blob =>
    rcases h with hpre | hpost
    · cases hpre
      exact Or.inl rfl
    · cases hpost
  | modified prePath preBlob postPath postBlob renamed =>
    rcases h with hpre | hpost
    · cases hpre
      exact Or.inr ⟨prePath, preBlob, postPath, postBlob, renamed, rfl, rfl⟩
    · cases hpost
      exact Or.inl rfl

namespace Bench

variable {b : Bench σ}

/-- A tool was started by the linter of a change on a file that stands for a side of it. -/
structure Started (b : Bench σ) (options : Options Adapter) (source target : CommitId) (change : Change)
    (side : Side) (file : Path) (program : String) (arguments : List Bytes) : Prop where
  side_of : side.Of change source target
  hands : b.Hands side file
  routed : ∃ a report, options.routing.select change.path options.language = some a ∧ program = a.program ∧
    arguments = a.arguments report file

/-- Linting a change starts tools on its sides only. -/
theorem starts_lintChange {options : Options Adapter} {source target : CommitId} {change : Change} {a : Adapter}
    (hsel : options.routing.select change.path options.language = some a) :
    Keeps (Starts fun program arguments => ∃ side file,
      b.Started options source target change side file program arguments)
      (b.lintChange (a.linter b.box) change source target) := by
  have hlint (side : Side) (hside : side.Of change source target) (file : Path) (hfile : b.Hands side file) :
      Keeps (Starts fun program arguments => ∃ side file,
        b.Started options source target change side file program arguments)
        (lintAs side (a.linter b.box) file) :=
    (starts_lint b.vcs fun report => ⟨side, file, hside, hfile, a, report, hsel, rfl, rfl⟩).reword _
  refine keeps_lintChange chain_starts (fun side hside => starts_withFile fun made => ?_) ?_
  · refine chain_starts.bind ((starts_call (.readBlob _) _ nofun).reword _) fun content => ?_
    refine chain_starts.bind (starts_fill content) fun _ => ?_
    refine chain_starts.bind (chain_starts.notify ?_ starts_note) fun _ => ?_
    · exact chain_starts.bind (chain_starts.need _ _) fun _ => chain_starts.pure _
    · exact hlint side hside _ (Or.inr ⟨made, rfl⟩)
  · exact keeps_lintInTree chain_starts starts_call starts_note fun side hside => hlint side hside _ (Or.inl rfl)

/-- **Every tool of a contrast** was started for a change that version control named. -/
theorem starts_contrast (b : Bench σ) (options : Options Adapter) (source target : CommitId) (s : Session σ) :
    Starts (fun program arguments => ∃ changes change side file,
      (b.vcs.changes source target s.world).1 = .ok changes ∧ change ∈ changes ∧
      b.Started options source target change side file program arguments)
      s ((b.contrast (options.equip b.box) source target).exec s).2 := by
  refine chain_starts.bind_from (keeps_opening chain_starts starts_note b.box source target s) fun _ s₀ hopen => ?_
  have hworld : s₀.world = s.world := (noticed_of_opening hopen).world
  rw [← hworld]
  refine chain_starts.bind_from (starts_call (.changes source target) _ nofun s₀) fun changes s₁ hcall => ?_
  obtain ⟨hanswer, -⟩ := Run.call_eq_ok_iff.1 hcall
  refine keeps_complete chain_starts starts_note (fun change hchange linter hsel => ?_) s₁
  obtain ⟨a, hroute, rfl⟩ := Options.select_of_equip hsel
  refine (starts_lintChange hroute).mono fun ⟨events, ht, hQ⟩ => ⟨events, ht, fun program arguments hmem => ?_⟩
  obtain ⟨side, file, hstarted⟩ := hQ program arguments hmem
  exact ⟨changes, change, side, file, hanswer, hchange, hstarted⟩

/-! ## Extensions of the files -/

section Extension

variable {side : Side} {file : Path} {l : Language}
  (htoken : ∀ made, ∀ c ∈ (b.box.temp.token made).toList, c ≠ '.' ∧ c ≠ '/')
include htoken

/-- A file that stands for a side has the extension of the side, if the path of the side names anything. -/
theorem Hands.extension_eq (h : b.Hands side file) (hside : side.path.components ≠ []) :
    file.extension = side.path.extension := by
  rcases h with rfl | ⟨made, rfl⟩
  · exact Path.extension_join hside
  · have hstart : ∀ c ∈ "git-contrast-".toList, c ≠ '.' ∧ c ≠ '/' := by simp
    refine Path.extension_join_name (by decide) fun c hc => ?_
    exact (List.mem_append.1 hc).elim (hstart c) (htoken made c)

theorem Hands.covers_eq (h : b.Hands side file) (hside : side.path.components ≠ []) :
    l.covers file = l.covers side.path := by
  rw [Language.covers, h.extension_eq htoken hside, Language.covers]

/-- A file that stands for a side belongs to every language to which the side belongs. -/
theorem Hands.covers (h : b.Hands side file) (hside : l.covers side.path = true) : l.covers file = true := by
  refine (h.covers_eq htoken fun hnone => ?_).trans hside
  have hext : side.path.extension = none := by
    rw [Path.extension, Path.fileName, hnone]
    rfl
  rw [Language.covers, hext] at hside
  cases hside

end Extension

/-- **Which files the tools see in a contrast that is confined to a language**, whatever is answered and however
it ends. Every tool is the one that the routes choose for a change that the language covers, and it is run on a
file that stands for a side of that change and has its extension. So the file belongs to the language, unless it
stands for the old side of a modified file whose old path is outside of the language: the path by which a change
is known is the new one, and no other is looked at. -/
theorem confinement_of_contrast (b : Bench σ) (options : Options Adapter) {l : Language}
    (hl : options.language = some l)
    (htoken : ∀ made, ∀ c ∈ (b.box.temp.token made).toList, c ≠ '.' ∧ c ≠ '/') (source target : CommitId)
    (s : Session σ) :
    ∃ events, ((b.contrast (options.equip b.box) source target).exec s).2.trace = s.trace ++ events ∧
      ∀ program arguments, .tool program arguments ∈ events → ∃ changes change side file,
        (b.vcs.changes source target s.world).1 = .ok changes ∧ change ∈ changes ∧
        b.Started options source target change side file program arguments ∧ l.covers change.path = true ∧
        (side.path.components ≠ [] → l.covers file = l.covers side.path) ∧
        (l.covers file = true ∨ ∃ prePath preBlob postPath postBlob renamed,
          change = .modified prePath preBlob postPath postBlob renamed ∧ side = ⟨source, ⟨prePath, preBlob⟩⟩ ∧
          l.covers prePath = false) := by
  obtain ⟨events, htrace, hstarted⟩ := starts_contrast b options source target s
  refine ⟨events, htrace, fun program arguments hmem => ?_⟩
  obtain ⟨changes, change, side, file, hanswer, hchange, h⟩ := hstarted program arguments hmem
  have hcovers : l.covers change.path = true := by
    obtain ⟨a, report, hsel, -, -⟩ := h.routed
    rw [hl] at hsel
    refine Bool.not_eq_false _ ▸ fun hnot => ?_
    rw [Routing.select_eq_none_of_not_covers hnot] at hsel
    cases hsel
  refine ⟨changes, change, side, file, hanswer, hchange, h, hcovers, h.hands.covers_eq htoken, ?_⟩
  rcases h.side_of.path_eq_or with hpath | ⟨prePath, preBlob, postPath, postBlob, renamed, rfl, rfl⟩
  · exact Or.inl (h.hands.covers htoken (hpath ▸ hcovers))
  · cases hpre : l.covers prePath with
    | false => exact Or.inr ⟨prePath, preBlob, postPath, postBlob, renamed, rfl, rfl, hpre⟩
    | true => exact Or.inl (h.hands.covers htoken hpre)

/-- A bench with one file that is renamed and changes its language on the way. Every tool reports nothing. -/
def crossing : Bench Head :=
  let changes := [.modified (.ofString "a.kt") ⟨"1"⟩ (.ofString "a.py") ⟨"2"⟩ true]
  { placid changes with
    box :=
      { (placid changes).box with
        start := fun _ _ _ => .ok ⟨.code 0, Text.encode "[]", [], some []⟩
        temp := ⟨.ofString "/tmp", true, fun _ => "x"⟩ } }

/-- Confined to Python, the linter of Python is run on the old version, which is Kotlin. -/
theorem confinement_of_contrast_of_crossing :
    ∃ events side, ((crossing.contrast (Options.equip ⟨some .python, Routing.standard, .degrade⟩ crossing.box)
        ⟨"s"⟩ ⟨"t"⟩).exec (Session.start (.branch "main"))).2.trace = events ∧
      .tool "pylint" ((Adapter.ofTool .pylint).arguments none (.ofString "/tmp/git-contrast-x.kt")) ∈ events ∧
      crossing.Hands side (.ofString "/tmp/git-contrast-x.kt") ∧
      Language.covers .python (.ofString "/tmp/git-contrast-x.kt") = false ∧
      side = (⟨⟨"s"⟩, ⟨.ofString "a.kt", ⟨"1"⟩⟩⟩ : Side) := by
  obtain ⟨events, htrace, h⟩ := confinement_of_contrast crossing ⟨some .python, Routing.standard, .degrade⟩ rfl
    (fun _ => show ∀ c ∈ "x".toList, c ≠ '.' ∧ c ≠ '/' by simp) ⟨"s"⟩ ⟨"t"⟩ (Session.start (.branch "main"))
  have hevents : events = [.changes ⟨"s"⟩ ⟨"t"⟩, .readBlob ⟨"1"⟩,
      .tool "pylint" ((Adapter.ofTool .pylint).arguments none (.ofString "/tmp/git-contrast-x.kt")),
      .readBlob ⟨"2"⟩,
      .tool "pylint" ((Adapter.ofTool .pylint).arguments none (.ofString "/tmp/git-contrast-x.py"))] :=
    htrace.symm
  have hmem : .tool "pylint" ((Adapter.ofTool .pylint).arguments none (.ofString "/tmp/git-contrast-x.kt")) ∈
      events := hevents ▸ .tail _ (.tail _ (.head _))
  obtain ⟨changes, change, side, file, hchanges, hchange, hstarted, -, -, hcovers⟩ := h _ _ hmem
  cases hchanges
  obtain rfl := List.mem_singleton.1 hchange
  -- the arguments tell the file, which Python does not cover
  obtain ⟨a, report, -, -, hargs⟩ := hstarted.routed
  obtain rfl : Path.ofString "/tmp/git-contrast-x.kt" = file := Adapter.file_inj hargs
  have hout : Language.covers .python (.ofString "/tmp/git-contrast-x.kt") = false := by decide +kernel
  rcases hcovers with hin | ⟨_, _, _, _, _, heq, rfl, -⟩
  · rw [hout] at hin
    cases hin
  · cases heq
    exact ⟨events, _, htrace, hmem, hstarted.hands, hout, rfl⟩

end Bench

end LintDelta
