import LintDelta.Proofs.Contrast.Walk
import LintDelta.Proofs.Path
import LintDelta.Routing

/-!
# Copies and routes

A linter that needs a file alone is given a temporary copy of it, under a name that is made up. Routes and
languages ask a path for its extension and for nothing else (`Language.covers_congr`,
`Routing.select_congr`), and the copy has the extension of the file, whatever the path of the file is made of.

Main statement: `routing_of_extract`, a copy goes where its file goes.
-/

namespace LintDelta

variable {σ α : Type}

/-! ## What an extension decides -/

/-- A language tells paths apart by their extensions. -/
theorem Language.covers_congr {p q : Path} (h : p.extension = q.extension) (l : Language) :
    l.covers p = l.covers q := by
  unfold Language.covers
  rw [h]

/-- A routing tells paths apart by their extensions. -/
theorem Routing.select_congr {p q : Path} (h : p.extension = q.extension) (r : Routing α)
    (language : Option Language) : r.select p language = r.select q language := by
  have hlanguage : language.all (·.covers p) = language.all (·.covers q) := by
    cases language with
    | none => rfl
    | some l => exact Language.covers_congr h l
  unfold Routing.select
  rw [hlanguage, h]

namespace Bench

variable {b : Bench σ} {side : Side} {file : Path} {s s' : Session σ}

/-! ## Making a copy -/

/-- The name of the copy of a side. -/
def copyPath (b : Bench σ) (side : Side) (made : Nat) : Path :=
  b.box.temp.path.join
    (TempDirectory.name "git-contrast-" (b.box.temp.token made) (side.path.extension.getD ""))

/-- Gives up the temporary file that was made last. -/
def dropCopy : Run σ Unit := modify fun s => { s with temps := s.temps.drop 1 }

/-- Reads the content of a side into the copy that was made last. -/
def fillCopy (b : Bench σ) (side : Side) : Run σ Unit := do
  let content ← (Run.call (.readBlob side.version.blob)
    (b.vcs.readBlob side.version.blob)).reword (copyFailure side.path)
  TempDirectory.fill content

/-- Makes the copy of a side, and leaves it there for who asked for it; one that cannot be filled is given
up. -/
def extract (b : Bench σ) (side : Side) : Run σ Path := do
  let s ← get
  let file := b.copyPath side s.made
  if b.box.temp.present then
    set { s with temps := ⟨file, []⟩ :: s.temps, made := s.made + 1 }
    match ← (b.fillCopy side).attempt with
    | .ok () => return file
    | .error e =>
      dropCopy
      Run.fail e
  else
    Run.fail (.resource side.path ("failed to create temporary file: " ++
      (TempDirectory.notFound ++ " at path " ++ Text.quoted file.display)))

/-- Lints a copy that is there. -/
def lintExtracted (b : Bench σ) (linter : Linter σ) (side : Side) (file : Path) : Run σ Tally := do
  b.box.notify .versions .debug do
    return .lintingCopy linter.name side.path (← Run.need .splitCharacter side.commit.short)
  lintAs side linter file

/-- Reading the content of a side ends with the words for its file where it fails. -/
theorem exec_readCopy (b : Bench σ) (side : Side) (s : Session σ) :
    ((Run.call (.readBlob side.version.blob) (b.vcs.readBlob side.version.blob)).reword
      (copyFailure side.path)).exec s =
      (((b.vcs.readBlob side.version.blob s.world).1.mapError (copyFailure side.path)).mapError .failed,
        { s with
          world := (b.vcs.readBlob side.version.blob s.world).2
          trace := s.trace ++ [.readBlob side.version.blob] }) := by
  rw [Run.exec_reword, Run.exec_call]
  cases (b.vcs.readBlob side.version.blob s.world).1 <;> rfl

/-- **Linting a copy is to extract it, to lint the file that was extracted, and to give it up.** -/
theorem exec_lintCopy (b : Bench σ) (linter : Linter σ) (side : Side) (s : Session σ) :
    (b.lintCopy linter side).exec s =
      (b.extract side >>= fun file => (b.lintExtracted linter side file).ensuring dropCopy).exec s := by
  rw [lintCopy, TempDirectory.exec_withFile, Run.exec_bind, extract, Run.exec_bind, Run.exec_get]
  dsimp only
  by_cases hpresent : b.box.temp.present
  · rw [if_pos hpresent, if_pos hpresent, Run.exec_bind, Run.exec_bind, Run.exec_set]
    dsimp only
    rw [Run.exec_bind, Run.exec_attempt, fillCopy, Run.exec_bind, exec_readCopy, exec_readCopy]
    cases (b.vcs.readBlob side.version.blob s.world).1 with
    | error e => rfl
    | ok content => rfl
  · rw [if_neg hpresent, if_neg hpresent]
    rfl

/-- A copy is there if its directory is and the content can be read: a file of that content, under the name
of the copy. -/
theorem extract_eq_ok_iff :
    (b.extract side).exec s = (.ok file, s') ↔
      b.box.temp.present = true ∧ file = b.copyPath side s.made ∧
        ∃ content, (b.vcs.readBlob side.version.blob s.world).1 = .ok content ∧
          s' = ⟨(b.vcs.readBlob side.version.blob s.world).2, ⟨file, content⟩ :: s.temps, s.made + 1,
            s.trace ++ [.readBlob side.version.blob]⟩ := by
  rw [extract, Run.exec_bind, Run.exec_get]
  dsimp only
  by_cases hpresent : b.box.temp.present
  · rw [if_pos hpresent, Run.exec_bind, Run.exec_set]
    dsimp only
    rw [Run.exec_bind, Run.exec_attempt, fillCopy, Run.exec_bind, exec_readCopy]
    cases hread : (b.vcs.readBlob side.version.blob s.world).1 with
    | error e =>
      constructor
      · intro h
        cases h
      · rintro ⟨-, -, content, hcontent, -⟩
        cases hcontent
    | ok content =>
      constructor
      · intro h
        cases h
        exact ⟨hpresent, rfl, content, rfl, rfl⟩
      · rintro ⟨-, rfl, content, hcontent, rfl⟩
        cases hcontent
        rfl
  · rw [if_neg hpresent, Run.exec_fail]
    constructor
    · intro h
      cases h
    · rintro ⟨h, -⟩
      exact absurd h hpresent

/-! ## Where a copy goes -/

/-- The name of a copy ends with the extension of its file, and has it, if the random part of the name holds
neither a dot nor a slash. -/
theorem extension_copyPath {made : Nat} (htoken : ∀ c ∈ (b.box.temp.token made).toList, c ≠ '.' ∧ c ≠ '/') :
    (b.copyPath side made).extension = side.path.extension := by
  have hstart : ∀ c ∈ "git-contrast-".toList, c ≠ '.' ∧ c ≠ '/' := by simp
  refine Path.extension_join_name (by decide) ?_
  intro c hc
  rcases List.mem_append.1 hc with hc | hc
  · exact hstart c hc
  · exact htoken c hc

/-- **A temporary copy goes where its file goes.** Whenever a copy of a side can be made, and the random part of
its name holds neither a dot nor a slash, the copy has the extension of the file: none where the file has none,
whatever bytes, dots and slashes its path is made of. So every language covers the copy if it covers the file,
every routing selects for the copy, with and without a language, what it selects for the file, and the copy is
what a linter of copies is run on. -/
theorem routing_of_extract (h : (b.extract side).exec s = (.ok file, s'))
    (htoken : ∀ c ∈ (b.box.temp.token s.made).toList, c ≠ '.' ∧ c ≠ '/') :
    file.extension = side.path.extension ∧
      (∀ l : Language, l.covers file = l.covers side.path) ∧
      (∀ (α : Type) (r : Routing α) (language : Option Language),
        r.select file language = r.select side.path language) ∧
      ∀ linter : Linter σ,
        (b.lintCopy linter side).exec s = ((b.lintExtracted linter side file).ensuring dropCopy).exec s' := by
  obtain ⟨-, hfile, -⟩ := extract_eq_ok_iff.1 h
  have hextension : file.extension = side.path.extension := by
    rw [hfile]
    exact extension_copyPath htoken
  refine ⟨hextension, Language.covers_congr hextension, fun α => Routing.select_congr hextension, ?_⟩
  intro linter
  rw [exec_lintCopy]
  exact Run.exec_bind_of_ok h

/-- A dotfile below a directory with a dot, with three dots in its name and two slashes after it, is copied
to a file with what follows its last dot. -/
theorem routing_of_extract_of_dotfile :
    let b := placid []
    let side : Side := ⟨⟨"1"⟩, ⟨.ofString "lib.c/.setup..py//", ⟨"2"⟩⟩⟩
    let s : Session Head := ⟨.branch "main", [], 7, []⟩
    let file := Path.ofString "/tmp/git-contrast-7.py"
    let s' : Session Head := ⟨.branch "main", [⟨file, []⟩], 8, [.readBlob ⟨"2"⟩]⟩
    (b.extract side).exec s = (.ok file, s') ∧
      (∀ c ∈ (b.box.temp.token s.made).toList, c ≠ '.' ∧ c ≠ '/') ∧
      file.extension = side.path.extension ∧
      (∀ l : Language, l.covers file = l.covers side.path) ∧
      (∀ (α : Type) (r : Routing α) (language : Option Language),
        r.select file language = r.select side.path language) ∧
      ∀ linter : Linter Head,
        (b.lintCopy linter side).exec s = ((b.lintExtracted linter side file).ensuring dropCopy).exec s' := by
  intro b side s file s'
  have hfile : file = b.copyPath side s.made := by decide +kernel
  have h : (b.extract side).exec s = (.ok file, s') := extract_eq_ok_iff.2 ⟨rfl, hfile, [], rfl, rfl⟩
  have htoken : ∀ c ∈ (b.box.temp.token s.made).toList, c ≠ '.' ∧ c ≠ '/' := by
    have hseven : b.box.temp.token s.made = "7" := by decide +kernel
    rw [hseven]
    simp
  exact ⟨h, htoken, routing_of_extract h htoken⟩

end Bench

end LintDelta
