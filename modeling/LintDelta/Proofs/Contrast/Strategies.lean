import LintDelta.Proofs.Contrast.Attribution
import LintDelta.Proofs.Contrast.Restoration
import LintDelta.Proofs.Linter.Judging

/-!
# Two ways to see the same file

A linter sees a version of a file as a temporary copy, or in the working tree after a checkout. For a
linter that goes by the content of the file alone (`Linter.GoesBy`) it should make no difference which
way is taken, and a tool that writes to its streams can be such a linter (`Adapter.goesBy_of_answer`).

Both ways end as one computation says that knows of neither copies nor trees (`Bench.judgedChange`): each
side in turn is named in a notice, judged by its bytes, and a failure names the side. That they do is
followed from the sides up to the change, once for the copies and once for the tree.

Main statement: `strategies_agree`.
-/

namespace LintDelta

open Text (Bytes)

variable {σ α β : Type}

/-! ## Runs that always end alike -/

namespace Run

/-- From every session of a kind the run ends in the same way, and the session that it leaves is of the
kind. -/
def Answers (I : Session σ → Prop) (x : Run σ α) (r : Except Stop α) : Prop :=
  ∀ s, I s → (x.exec s).1 = r ∧ I (x.exec s).2

namespace Answers

variable {I : Session σ → Prop}

theorem pure (a : α) : Answers I (Pure.pure a : Run σ α) (Pure.pure a) := fun _ hs => ⟨rfl, hs⟩

theorem bind {x : Run σ α} {f : α → Run σ β} {r : Except Stop α} {g : α → Except Stop β}
    (hx : Answers I x r) (hf : ∀ a, Answers I (f a) (g a)) : Answers I (x >>= f) (r >>= g) := by
  intro s hs
  obtain ⟨hr, hs₁⟩ := hx s hs
  rw [exec_bind]
  rcases hrun : x.exec s with ⟨stop | a, s₁⟩
  · rw [hrun] at hr hs₁
    subst hr
    exact ⟨rfl, hs₁⟩
  · rw [hrun] at hr hs₁
    subst hr
    exact hf a s₁ hs₁

/-- What is done last does not change the end, if it succeeds. -/
theorem ensuring {x : Run σ α} {last : Run σ Unit} {r : Except Stop α} (hx : Answers I x r)
    (hlast : Answers I last (.ok ())) : Answers I (x.ensuring last) r := by
  intro s hs
  obtain ⟨hr, hs₁⟩ := hx s hs
  obtain ⟨hok, hs₂⟩ := hlast _ hs₁
  rw [exec_ensuring]
  rcases hrun : last.exec (x.exec s).2 with ⟨stop | _, s₂⟩
  · rw [hrun] at hok
    cases hok
  · rw [hrun] at hs₂
    exact ⟨hr, hs₂⟩

end Answers

end Run

/-! ## Linters that go by the content -/

/-- What the file of a path holds: the content of the temporary file of this name, the latest if there are
several, and else what stands in the outside world. -/
def Session.bytesAt (disk : σ → Path → Option Bytes) (s : Session σ) (file : Path) : Option Bytes :=
  match s.temps.find? (·.path = file) with
  | some temp => some temp.content
  | none => disk s.world file

/-- Reports a failure of a tool against another path. -/
def Stop.attributeTo (path : Path) : Stop → Stop
  | .failed e => .failed (e.attributeTo path)
  | stop => stop

/-- The linter goes by the content of a file and by nothing else. Wherever the file stands, the linting ends as
`verdict` says of its bytes, up to the path that a failure names, and it fails in no other way than a tool
does. It leaves the temporary files alone, and the outside world in order. The files are those that a path can
name: no tool can be started on a path with a zero byte, whatever it would hold. -/
structure Linter.GoesBy (linter : Linter σ) (worlds : σ → Prop) (disk : σ → Path → Option Bytes)
    (files : Path → Prop) (verdict : Bytes → Except Stop Tally) : Prop where
  ends : ∀ {s file bytes}, files file → worlds s.world → s.bytesAt disk file = some bytes → ∀ path,
    ((linter.lint file).exec s).1.mapError (Stop.attributeTo path) =
      (verdict bytes).mapError (Stop.attributeTo path)
  fails : ∀ {bytes e}, verdict bytes = .error (.failed e) → ∃ name path message, e = .lintTool name path message
  keeps : ∀ {s file}, worlds s.world → worlds ((linter.lint file).exec s).2.world
  temps : ∀ {s file}, ((linter.lint file).exec s).2.temps = s.temps

/-- The same linter, run in the other way. -/
def Linter.flipped (linter : Linter σ) : Linter σ :=
  { linter with needsCheckout := !linter.needsCheckout }

theorem Linter.GoesBy.flipped {linter : Linter σ} {worlds : σ → Prop} {disk : σ → Path → Option Bytes}
    {files : Path → Prop} {verdict : Bytes → Except Stop Tally} (h : linter.GoesBy worlds disk files verdict) :
    linter.flipped.GoesBy worlds disk files verdict :=
  ⟨h.ends, h.fails, h.keeps, h.temps⟩

/-! ### Tools -/

namespace Adapter

variable {a : Adapter}

/-- What a tool that writes to its streams reports does not depend on where its file stands. -/
theorem reportOf_of_streams (hstreams : a.writesFile = false) (file file' : Path) (outcome : Outcome) :
    a.reportOf file outcome = a.reportOf file' outcome := by
  unfold writesFile at hstreams
  unfold reportOf
  cases htool : a.tool <;> rw [htool] at hstreams <;> first | rfl | cases hstreams

theorem conclude_attributeTo (hstreams : a.writesFile = false) (file file' path : Path)
    (answer : Except String Outcome) :
    (a.conclude file answer).mapError (Stop.attributeTo path) =
      (a.conclude file' answer).mapError (Stop.attributeTo path) := by
  cases answer with
  | error reason => rfl
  | ok outcome =>
    simp only [conclude, judge, reportOf_of_streams hstreams file file' outcome]
    split
    · rfl
    · split
      · rfl
      · split
        · rfl
        · split <;> rfl

/-- **A tool goes by the content of its file** if it writes its report to its streams and the system's answer to
starting it depends on the content only. -/
theorem goesBy_of_answer {box : Toolbox σ} {worlds : σ → Prop} {disk : σ → Path → Option Bytes}
    {files : Path → Prop} {run : Bytes → Except String Outcome} (hstreams : a.writesFile = false)
    (hrun : ∀ {s : Session σ} {file bytes}, files file → worlds s.world → s.bytesAt disk file = some bytes →
      a.answer box file s = run bytes) (file : Path) :
    (a.linter box).GoesBy worlds disk files fun bytes => a.conclude file (run bytes) where
  ends {s file' bytes} hfile hworld hbytes path := by
    have hlint : ((a.lint box file').exec s).1 = a.conclude file' (run bytes) := by
      rw [exec_lint_fst, hstreams, hrun hfile hworld hbytes]
      rfl
    exact hlint ▸ conclude_attributeTo hstreams file' file path (run bytes)
  fails {bytes e} h := by
    cases hanswer : run bytes with
    | error reason =>
      rw [hanswer] at h
      cases h
      exact ⟨_, _, _, rfl⟩
    | ok outcome =>
      rw [hanswer] at h
      rcases blames_of_judge h with ⟨message, rfl⟩ | ⟨hfile, -⟩
      · exact ⟨_, _, _, rfl⟩
      · exact absurd (hstreams.symm.trans hfile) nofun
  keeps {s file'} hworld := by
    have hkeeps := frame_world.lint a box file' s
    exact hkeeps ▸ hworld
  temps {s file'} := frame_temps.lint a box file' s

end Adapter

/-! ### Version control that does not fail -/

/-- Version control without faults, as far as the given sides are concerned: their blobs can be read, and checking
out the commit of a side puts the content of its blob at its path in the working tree. HEAD is known,
and what is answered can be checked out again. -/
structure VersionControl.Serves (vcs : VersionControl σ) (worlds : σ → Prop) (disk : σ → Path → Option Bytes)
    (content : BlobId → Bytes) (sides : Side → Prop) : Prop where
  isClean : ∀ {w}, worlds w → worlds (vcs.isClean w).2
  head : ∀ {w}, worlds w → worlds (vcs.head w).2 ∧ ∃ name, (vcs.head w).1 = .ok name
  restore : ∀ {w w' name}, worlds w → worlds w' → (vcs.head w').1 = .ok name →
    worlds (vcs.checkout name w).2 ∧ (vcs.checkout name w).1 = .ok ()
  readBlob : ∀ {w side}, worlds w → sides side → worlds (vcs.readBlob side.version.blob w).2 ∧
    (vcs.readBlob side.version.blob w).1 = .ok (content side.version.blob)
  checkout : ∀ {w side}, worlds w → sides side → worlds (vcs.checkout (.detached side.commit) w).2 ∧
    (vcs.checkout (.detached side.commit) w).1 = .ok () ∧
    disk (vcs.checkout (.detached side.commit) w).2 (vcs.workdir.join side.path) = some (content side.version.blob)

/-! ## What both ways come to -/

namespace Bench

/-- Naming a side in a notice fails only on a commit id that cannot be cut, and only if the notice is shown. -/
def announced (b : Bench σ) (side : Side) : Except Stop Unit :=
  if b.box.shows .versions .debug then
    match side.commit.short with
    | some _ => return ()
    | none => throw .splitCharacter
  else return ()

theorem announced_cases (b : Bench σ) (side : Side) :
    b.announced side = .ok () ∨ b.announced side = .error .splitCharacter := by
  unfold announced
  split
  · cases side.commit.short with
    | none => exact Or.inr rfl
    | some name => exact Or.inl rfl
  · exact Or.inl rfl

/-- The judgement of a side. -/
def judged (b : Bench σ) (verdict : Bytes → Except Stop Tally) (content : BlobId → Bytes) (side : Side) :
    Except Stop Tally := do
  b.announced side
  (verdict (content side.version.blob)).mapError (Stop.attributeTo side.path)

/-- The judgement of a side, if there is one. -/
def judged? (b : Bench σ) (verdict : Bytes → Except Stop Tally) (content : BlobId → Bytes) :
    Option Side → Except Stop Tally
  | none => return ∅
  | some side => b.judged verdict content side

/-- The judgement of both sides, one after the other. -/
def judgedChange (b : Bench σ) (verdict : Bytes → Except Stop Tally) (content : BlobId → Bytes)
    (pre post : Option Side) : Except Stop (Tally × Tally) := do
  let before ← b.judged? verdict content pre
  return (before, ← b.judged? verdict content post)

/-- The outside world is in order, and these temporary files exist. -/
def Standing (worlds : σ → Prop) (temps : List TempFile) (s : Session σ) : Prop :=
  worlds s.world ∧ s.temps = temps

theorem standing_noted {worlds : σ → Prop} {temps : List TempFile} {box : Toolbox σ} {origin : Origin}
    {level : Level} {n : Notice} {s : Session σ} (hs : Standing worlds temps s) :
    Standing worlds temps (box.noted origin level n s) := by
  unfold Toolbox.noted
  split <;> exact hs

section

open Run (Answers)

variable {b : Bench σ} {linter : Linter σ} {worlds : σ → Prop} {disk : σ → Path → Option Bytes}
  {files : Path → Prop} {verdict : Bytes → Except Stop Tally} {content : BlobId → Bytes} {sides : Side → Prop}
  {temps : List TempFile} {side : Side}

/-- A notice that names the commit of a side, whatever else it says. -/
theorem answers_notify (message : String → Notice) :
    Answers (Standing worlds temps)
      (b.box.notify .versions .debug do return message (← Run.need .splitCharacter side.commit.short))
      (b.announced side) := by
  intro s hs
  unfold Toolbox.notify announced
  split
  · cases side.commit.short with
    | none => exact ⟨rfl, hs⟩
    | some name => exact ⟨rfl, hs⟩
  · exact ⟨rfl, hs⟩

/-- Linting a file that holds the content of a side. -/
theorem answers_lintAs (hlinter : linter.GoesBy worlds disk files verdict) {s : Session σ} {file : Path}
    {bytes : Bytes} (hfile : files file) (hs : Standing worlds temps s)
    (hbytes : s.bytesAt disk file = some bytes) :
    ((lintAs side linter file).exec s).1 = (verdict bytes).mapError (Stop.attributeTo side.path) ∧
      Standing worlds temps ((lintAs side linter file).exec s).2 := by
  have hends := hlinter.ends hfile hs.1 hbytes side.path
  have hworlds : worlds ((linter.lint file).exec s).2.world := hlinter.keeps hs.1
  have htemps : ((linter.lint file).exec s).2.temps = temps := hlinter.temps.trans hs.2
  rw [lintAs, Run.exec_reword]
  rcases hrun : (linter.lint file).exec s with ⟨(e | _ | _) | t, s'⟩ <;> rw [hrun] at hends hworlds htemps <;>
    exact ⟨hends, hworlds, htemps⟩

/-! ### Copies -/

/-- A copy of a side is judged by the content of the blob, which the temporary file holds. -/
theorem answers_lintCopy (hvcs : b.vcs.Serves worlds disk content sides)
    (hlinter : linter.GoesBy worlds disk files verdict) (htemp : b.box.temp.present = true)
    (hfiles : ∀ side, sides side → ∀ file, b.Hands side file → files file) (hside : sides side) :
    Answers (Standing worlds temps) (b.lintCopy linter side) (b.judged verdict content side) := by
  intro s hs
  let bytes := content side.version.blob
  let file := b.box.temp.path.join
    (TempDirectory.name "git-contrast-" (b.box.temp.token s.made) (side.path.extension.getD ""))
  -- once the file is filled, the rest goes by the temporary files alone
  have hrest : Answers (Standing worlds (⟨file, bytes⟩ :: temps))
      (do
        b.box.notify .versions .debug do
          return .lintingCopy linter.name side.path (← Run.need .splitCharacter side.commit.short)
        lintAs side linter file) (b.judged verdict content side) := by
    refine (answers_notify (.lintingCopy linter.name side.path)).bind fun _ s₁ hs₁ => ?_
    refine answers_lintAs hlinter (hfiles side hside file (Or.inr ⟨s.made, rfl⟩)) hs₁ ?_
    simp [Session.bytesAt, hs₁.2, bytes]
  obtain ⟨hworld, hblob⟩ := hvcs.readBlob hs.1 hside
  let filled : Session σ := ⟨(b.vcs.readBlob side.version.blob s.world).2, ⟨file, bytes⟩ :: s.temps, s.made + 1,
    s.trace ++ [.readBlob side.version.blob]⟩
  obtain ⟨hjudged, hworld', htemps⟩ := hrest filled ⟨hworld, congrArg _ hs.2⟩
  have hread : ((Run.call (.readBlob side.version.blob) (b.vcs.readBlob side.version.blob)).reword
      (copyFailure side.path)).exec { s with temps := ⟨file, []⟩ :: s.temps, made := s.made + 1 } =
      (.ok bytes, { filled with temps := ⟨file, []⟩ :: s.temps }) :=
    Run.reword_eq_ok_iff.2 (Run.call_eq_ok_iff.2 ⟨hblob, rfl⟩)
  have hfill : (TempDirectory.fill bytes).exec { filled with temps := ⟨file, []⟩ :: s.temps } = (.ok (), filled) :=
    rfl
  rw [lintCopy, TempDirectory.exec_withFile, if_pos htemp]
  dsimp only
  rw [Run.exec_bind_of_ok hread, Run.exec_bind_of_ok hfill]
  refine ⟨hjudged, hworld', ?_⟩
  rw [htemps, List.drop_one, List.tail_cons]

theorem answers_lintCopy? (hvcs : b.vcs.Serves worlds disk content sides)
    (hlinter : linter.GoesBy worlds disk files verdict) (htemp : b.box.temp.present = true)
    (hfiles : ∀ side, sides side → ∀ file, b.Hands side file → files file) :
    ∀ side?, (∀ side, side? = some side → sides side) →
      Answers (Standing worlds temps) (b.lintCopy? linter side?) (b.judged? verdict content side?)
  | none, _ => .pure ∅
  | some side, hside => answers_lintCopy hvcs hlinter htemp hfiles (hside side rfl)

/-! ### The working tree -/

/-- A side in the tree is judged by what its checkout put there, since no temporary file stands in the way. -/
theorem answers_visit (hvcs : b.vcs.Serves worlds disk content sides)
    (hlinter : linter.GoesBy worlds disk files verdict)
    (hfiles : ∀ side, sides side → ∀ file, b.Hands side file → files file)
    (htree : ∀ side, sides side → ∀ temp ∈ temps, temp.path ≠ b.vcs.workdir.join side.path) (hside : sides side) :
    Answers (Standing worlds temps) (b.visit linter side)
      ((verdict (content side.version.blob)).mapError (Stop.attributeTo side.path)) := by
  intro s hs
  obtain ⟨hworld, hok, hdisk⟩ := hvcs.checkout hs.1 hside
  have hnone : temps.find? (·.path = b.vcs.workdir.join side.path) = none := by
    simpa [List.find?_eq_none] using htree side hside
  have hcheckout : ((Run.call (.checkout (.detached side.commit)) (b.vcs.checkout (.detached side.commit))).reword
      fun e => .resource side.path e.message).exec s =
      (.ok (), { s with
        world := (b.vcs.checkout (.detached side.commit) s.world).2
        trace := s.trace ++ [.checkout (.detached side.commit)] }) :=
    Run.reword_eq_ok_iff.2 (Run.call_eq_ok_iff.2 ⟨hok, rfl⟩)
  unfold visit
  dsimp only
  rw [Run.exec_bind_of_ok hcheckout]
  refine answers_lintAs hlinter (hfiles side hside _ (Or.inl rfl)) ⟨hworld, hs.2⟩ ?_
  simp only [Session.bytesAt, hs.2, hnone, hdisk]

theorem answers_restore (hvcs : b.vcs.Serves worlds disk content sides) {w : σ} {initial : Head}
    (hw : worlds w) (hhead : (b.vcs.head w).1 = .ok initial) :
    Answers (Standing worlds temps) (b.restore initial) (.ok ()) := by
  intro s hs
  obtain ⟨hworld, hok⟩ := hvcs.restore hs.1 hw hhead
  rw [exec_restore_of_ok hok]
  exact ⟨rfl, hworld, hs.2⟩

/-- A clean tree is held, at a HEAD to which it can be put back. -/
theorem exec_holdTree_of_clean (hvcs : b.vcs.Serves worlds disk content sides) {s : Session σ}
    (hs : Standing worlds temps s) (hclean : (b.vcs.isClean s.world).1 = .ok true) (path : Path) :
    ∃ initial s', (b.holdTree path).exec s = (.ok initial, s') ∧ Standing worlds temps s' ∧
      Answers (Standing worlds temps) (b.restore initial) (.ok ()) := by
  have hworld := hvcs.isClean hs.1
  obtain ⟨hworld', initial, hhead⟩ := hvcs.head hworld
  refine ⟨initial, ⟨(b.vcs.head (b.vcs.isClean s.world).2).2, s.temps, s.made, s.trace ++ [.isClean] ++ [.head]⟩,
    ?_, ⟨hworld', hs.2⟩, answers_restore hvcs hworld hhead⟩
  refine Run.bind_eq_ok_iff.2 ⟨true, _, Run.reword_eq_ok_iff.2 (Run.call_eq_ok_iff.2 ⟨hclean, rfl⟩), ?_⟩
  exact Run.reword_eq_ok_iff.2 (Run.call_eq_ok_iff.2 ⟨hhead, rfl⟩)

theorem exec_lintInTree_of_clean (hvcs : b.vcs.Serves worlds disk content sides)
    (hlinter : linter.GoesBy worlds disk files verdict)
    (hfiles : ∀ side, sides side → ∀ file, b.Hands side file → files file)
    (htree : ∀ side, sides side → ∀ temp ∈ temps, temp.path ≠ b.vcs.workdir.join side.path)
    {pre post : Option Side} (hsides : ∀ side, pre = some side ∨ post = some side → sides side)
    {s : Session σ} (hs : Standing worlds temps s) (hclean : (b.vcs.isClean s.world).1 = .ok true)
    (path : Path) :
    ((b.lintInTree linter path pre post).exec s).1 = b.judgedChange verdict content pre post ∧
      Standing worlds temps ((b.lintInTree linter path pre post).exec s).2 := by
  obtain ⟨initial, s₁, hhold, hs₁, hrestore⟩ := exec_holdTree_of_clean hvcs hs hclean path
  have hvisit : ∀ side, pre = some side ∨ post = some side →
      Answers (Standing worlds temps) (b.visit linter side)
        ((verdict (content side.version.blob)).mapError (Stop.attributeTo side.path)) := fun side hside =>
    answers_visit hvcs hlinter hfiles htree (hsides side hside)
  have hannounce (side : Side) :
      Answers (Standing worlds temps) (b.announce linter side) (b.announced side) :=
    answers_notify (.checkingOut linter.name side.path)
  rw [lintInTree, Run.exec_bind_of_ok hhold]
  rcases pre with _ | before <;> rcases post with _ | after
  · exact ⟨rfl, hs₁⟩
  · have hafter := ((hannounce after).bind fun _ =>
      .ensuring ((hvisit after (Or.inr rfl)).bind fun t => .pure ((∅, t) : Tally × Tally)) hrestore) s₁ hs₁
    exact ⟨hafter.1.trans (by simp [judgedChange, judged?, judged]), hafter.2⟩
  · have hbefore := ((hannounce before).bind fun _ =>
      .ensuring ((hvisit before (Or.inl rfl)).bind fun t => .pure ((t, ∅) : Tally × Tally)) hrestore) s₁ hs₁
    exact ⟨hbefore.1.trans (by simp [judgedChange, judged?, judged]), hbefore.2⟩
  · have hboth := ((hannounce before).bind fun _ => .ensuring ((hvisit before (Or.inl rfl)).bind fun pre =>
      (hannounce after).bind fun _ => (hvisit after (Or.inr rfl)).bind fun post => .pure (pre, post))
      hrestore) s₁ hs₁
    exact ⟨hboth.1.trans (by simp [judgedChange, judged?, judged]), hboth.2⟩

/-! ### Changes -/

/-- **A change is judged by its contents**, in whichever way the linter is run, and nothing is out of order
afterwards. -/
theorem exec_lintChange_of_clean (hvcs : b.vcs.Serves worlds disk content sides)
    (hlinter : linter.GoesBy worlds disk files verdict) (htemp : b.box.temp.present = true)
    (hfiles : ∀ side, sides side → ∀ file, b.Hands side file → files file)
    (htree : ∀ side, sides side → ∀ temp ∈ temps, temp.path ≠ b.vcs.workdir.join side.path)
    {change : Change} {source target : CommitId}
    (hsides : ∀ side : Side, side.Of change source target → sides side)
    {s : Session σ} (hs : Standing worlds temps s) (hclean : (b.vcs.isClean s.world).1 = .ok true) :
    ((b.lintChange linter change source target).exec s).1 =
        b.judgedChange verdict content (Side.before change source) (Side.after change target) ∧
      Standing worlds temps ((b.lintChange linter change source target).exec s).2 := by
  unfold lintChange
  dsimp only
  split
  · exact exec_lintInTree_of_clean hvcs hlinter hfiles htree hsides hs hclean _
  · have hcopy : ∀ side?, (∀ side, side? = some side → sides side) →
        Answers (Standing worlds temps) (b.lintCopy? linter side?) (b.judged? verdict content side?) :=
      answers_lintCopy? hvcs hlinter htemp hfiles
    exact ((hcopy _ fun side h => hsides side (Or.inl h)).bind fun _ =>
      (hcopy _ fun side h => hsides side (Or.inr h)).bind fun _ => .pure _) s hs

/-- A side whose judgement fails: a tool complained about its content, and the failure names the side. -/
theorem exists_of_judged?_error (hlinter : linter.GoesBy worlds disk files verdict) {side? : Option Side} {e : Failure}
    (h : b.judged? verdict content side? = .error (.failed e)) :
    ∃ side, side? = some side ∧ ∃ name path message,
      verdict (content side.version.blob) = .error (.failed (.lintTool name path message)) ∧
      e = .lintTool name side.path message := by
  cases side? with
  | none => cases h
  | some side =>
    refine ⟨side, rfl, ?_⟩
    have hverdict : (verdict (content side.version.blob)).mapError (Stop.attributeTo side.path) =
        .error (.failed e) := by
      rcases b.announced_cases side with hann | hann <;> rw [judged?, judged, hann] at h
      · exact h
      · cases h
    cases hv : verdict (content side.version.blob) with
    | ok t =>
      rw [hv] at hverdict
      cases hverdict
    | error stop =>
      rw [hv] at hverdict
      cases stop with
      | overflow => cases hverdict
      | splitCharacter => cases hverdict
      | failed e₀ =>
        obtain ⟨name, path, message, rfl⟩ := hlinter.fails hv
        cases hverdict
        exact ⟨name, path, message, rfl, rfl⟩

/-- **The two ways agree.** Take a linter that goes by the content of a file alone and fails only as tools do, at
least on the files that it may be given for the sides of a change. Take version control without faults on these
sides, a clean tree, and a place for temporary files. Then linting the change ends in the same way whether the
linter is given copies or the tree: with the same tallies, or with the same failure. A failure is the tool's own on
the content of a side, with its name and its message, and it names the path of that side. -/
theorem strategies_agree (hlinter : linter.GoesBy worlds disk files verdict) {change : Change}
    {source target : CommitId} (hvcs : b.vcs.Serves worlds disk content (·.Of change source target))
    (hfiles : ∀ side : Side, side.Of change source target → ∀ file, b.Hands side file → files file)
    (htemp : b.box.temp.present = true) {s : Session σ} (hworld : worlds s.world)
    (hclean : (b.vcs.isClean s.world).1 = .ok true)
    (htree : ∀ side : Side, side.Of change source target →
      ∀ temp ∈ s.temps, temp.path ≠ b.vcs.workdir.join side.path) :
    ((b.lintChange linter change source target).exec s).1 =
      ((b.lintChange linter.flipped change source target).exec s).1 ∧
    ∀ e, ((b.lintChange linter change source target).exec s).1 = .error (.failed e) →
      ∃ side : Side, side.Of change source target ∧ ∃ name path message,
        verdict (content side.version.blob) = .error (.failed (.lintTool name path message)) ∧
        e = .lintTool name side.path message := by
  obtain ⟨hown, -⟩ := exec_lintChange_of_clean hvcs hlinter htemp hfiles htree (fun _ h => h) ⟨hworld, rfl⟩ hclean
  obtain ⟨hflipped, -⟩ :=
    exec_lintChange_of_clean hvcs hlinter.flipped htemp hfiles htree (fun _ h => h) ⟨hworld, rfl⟩ hclean
  refine ⟨hown.trans hflipped.symm, fun e he => ?_⟩
  rw [hown, judgedChange] at he
  cases hbefore : b.judged? verdict content (Side.before change source) with
  | error stop =>
    rw [hbefore] at he
    cases he
    obtain ⟨side, hside, hfailed⟩ := exists_of_judged?_error hlinter hbefore
    exact ⟨side, Or.inl hside, hfailed⟩
  | ok pre =>
    cases hafter : b.judged? verdict content (Side.after change target) with
    | error stop =>
      rw [hbefore, hafter] at he
      cases he
      obtain ⟨side, hside, hfailed⟩ := exists_of_judged?_error hlinter hafter
      exact ⟨side, Or.inr hside, hfailed⟩
    | ok post =>
      rw [hbefore, hafter] at he
      cases he

end

/-! ### A linter that reads -/

/-- A bench on a file that is empty at one commit and not at the other. -/
def twofold : Bench Head :=
  { placid [] with
    vcs := { (placid []).vcs with readBlob := fun blob head => (.ok (Text.encode blob.text), head) } }

/-- What stands in the working tree of `twofold`. -/
def twofoldDisk (head : Head) (file : Path) : Option Bytes :=
  if file = twofold.vcs.workdir.join (.ofString "a.c") then
    if head = .detached ⟨"s"⟩ then some [] else some (Text.encode "goto")
  else none

/-- A linter that reads a file and is content with an empty one only. -/
def reader : Linter Head :=
  ⟨"reader", false, fun file => do
    let s ← get
    if s.bytesAt twofoldDisk file = some [] then return ∅
    else Run.fail (.lintTool "reader" file "not empty")⟩

theorem reader_goesBy : reader.GoesBy (fun _ => True) twofoldDisk (fun _ => True) fun bytes =>
    if bytes = [] then .ok ∅ else .error (.failed (.lintTool "reader" (.ofString "") "not empty")) := by
  have hexec (s : Session Head) (file : Path) : (reader.lint file).exec s =
      (if s.bytesAt twofoldDisk file = some [] then .ok ∅
        else .error (.failed (.lintTool "reader" file "not empty")), s) := by
    simp only [reader, Run.exec_bind, Run.exec_get]
    split <;> rfl
  refine ⟨fun {s file bytes} _ _ hfile path => ?_, fun {bytes e} h => ?_, fun _ => trivial, fun {s file} => ?_⟩
  · rw [hexec, hfile]
    by_cases hb : bytes = []
    · simp [hb]
    · rw [if_neg hb, if_neg fun h => hb (Option.some.inj h)]
      rfl
  · split at h
    · cases h
    · cases h
      exact ⟨_, _, _, rfl⟩
  · rw [hexec]

/-- The file is filled. -/
def filling : Change := .modified (.ofString "a.c") ⟨""⟩ (.ofString "a.c") ⟨"goto"⟩ false

/-- The reader fails on the later content, with the copy and in the tree, and names the file. -/
theorem strategies_agree_of_reader :
    ((twofold.lintChange reader filling ⟨"s"⟩ ⟨"t"⟩).exec (Session.start (.branch "main"))).1 =
      .error (.failed (.lintTool "reader" (.ofString "a.c") "not empty")) ∧
    ((twofold.lintChange reader.flipped filling ⟨"s"⟩ ⟨"t"⟩).exec (Session.start (.branch "main"))).1 =
      .error (.failed (.lintTool "reader" (.ofString "a.c") "not empty")) := by
  have hvcs : twofold.vcs.Serves (fun _ => True) twofoldDisk (fun blob => Text.encode blob.text)
      (·.Of filling ⟨"s"⟩ ⟨"t"⟩) := by
    have hbefore : twofoldDisk (.detached ⟨"s"⟩) (twofold.vcs.workdir.join (.ofString "a.c")) =
        some (Text.encode "") := by decide +kernel
    have hafter : twofoldDisk (.detached ⟨"t"⟩) (twofold.vcs.workdir.join (.ofString "a.c")) =
        some (Text.encode "goto") := by decide +kernel
    refine ⟨fun _ => trivial, fun _ => ⟨trivial, _, rfl⟩, fun _ _ _ => ⟨trivial, rfl⟩, fun _ _ => ⟨trivial, rfl⟩, ?_⟩
    rintro w side - (h | h) <;> cases h
    · exact ⟨trivial, rfl, hbefore⟩
    · exact ⟨trivial, rfl, hafter⟩
  have hcopy : ((twofold.lintChange reader filling ⟨"s"⟩ ⟨"t"⟩).exec (Session.start (.branch "main"))).1 =
      .error (.failed (.lintTool "reader" (.ofString "a.c") "not empty")) := rfl
  obtain ⟨hagree, -⟩ := strategies_agree reader_goesBy hvcs (fun _ _ _ _ => trivial) rfl
    (s := Session.start (.branch "main")) trivial rfl nofun
  exact ⟨hcopy, hagree.symm.trans hcopy⟩

end Bench

end LintDelta
