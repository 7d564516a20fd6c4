import LintDelta.Proofs.Contrast.Capacity
import LintDelta.Proofs.Contrast.Meter
import LintDelta.Proofs.Linter.Verdict

/-!
# What a run spends

The meter of a run goes on with every entry that a tool reports, so what is read off it bounds every count. A
linting reads the meter on by at least what its tally holds (`Adapter.spends_lint`), and linting a change by at
least what both of its tallies hold (`Bench.spends_lintChange`). Nothing in them overflows before the meter shows
2^63 entries.

A part of a run that starts from a reading and keeps to such a bound is said to spend (`Spends`), and the rules
for it follow the way a run is built.
-/

namespace LintDelta

variable {σ α β : Type}

/-! ## Spending -/

/-- The meter goes on, and only after 2^63 entries does it show that something overflowed. -/
structure Meter.Goes (m m' : Meter) : Prop where
  le : m.entries ≤ m'.entries
  overflows : m'.overflows = m.overflows ∨ 2 ^ 63 ≤ m'.entries

theorem Meter.Goes.refl (m : Meter) : m.Goes m := ⟨Nat.le_refl _, Or.inl rfl⟩

theorem Meter.Goes.trans {m₁ m₂ m₃ : Meter} (h : m₁.Goes m₂) (h' : m₂.Goes m₃) : m₁.Goes m₃ where
  le := Nat.le_trans h.le h'.le
  overflows := by
    rcases h'.overflows with heq' | hfull
    · rcases h.overflows with heq | hfull
      · exact Or.inl (heq'.trans heq)
      · exact Or.inr (Nat.le_trans hfull h'.le)
    · exact Or.inr hfull

/-- What comes of a run between two readings: the meter goes on, a value comes with a second reading of which `Q`
holds, and there is no overflow before 2^63 entries were read. -/
structure Outlay (Q : α → Nat → Prop) (m : Meter) (r : Except Stop α) (m' : Meter) : Prop where
  goes : m.Goes m'
  ok : ∀ a, r = .ok a → Q a m'.entries
  overflow : r = .error .overflow → 2 ^ 63 ≤ m'.entries

/-- From every reading of which `P` holds a run comes to an outlay for which `Q` holds. -/
def Spends (P : Nat → Prop) (x : Run (σ × Meter) α) (Q : α → Nat → Prop) : Prop :=
  ∀ s, P s.world.2.entries → Outlay Q s.world.2 (x.exec s).1 (x.exec s).2.world.2

/-- What comes of two parts that run one after the other from a session. -/
theorem Outlay.bind {x : Run (σ × Meter) α} {f : α → Run (σ × Meter) β} {Q : α → Nat → Prop} {R : β → Nat → Prop}
    {s : Session (σ × Meter)} (hx : Outlay Q s.world.2 (x.exec s).1 (x.exec s).2.world.2)
    (hf : ∀ a s', x.exec s = (.ok a, s') → Q a s'.world.2.entries →
      Outlay R s'.world.2 ((f a).exec s').1 ((f a).exec s').2.world.2) :
    Outlay R s.world.2 ((x >>= f).exec s).1 ((x >>= f).exec s).2.world.2 := by
  rw [Run.exec_bind]
  rcases hr : x.exec s with ⟨stop | a, s₁⟩ <;> rw [hr] at hx
  · refine ⟨hx.goes, nofun, fun heq => hx.overflow ?_⟩
    cases heq
    rfl
  · have hnext := hf a s₁ hr (hx.ok a rfl)
    exact ⟨hx.goes.trans hnext.goes, hnext.ok, hnext.overflow⟩

namespace Spends

variable {P : Nat → Prop} {Q Q' : α → Nat → Prop} {R : β → Nat → Prop} {x : Run (σ × Meter) α}

/-- A run that leaves the meter alone and does not overflow. -/
theorem still (hm : ∀ s, (x.exec s).2.world.2 = s.world.2) (hno : ∀ s, (x.exec s).1 ≠ .error .overflow)
    (hok : ∀ s a, (x.exec s).1 = .ok a → ∀ n, P n → Q a n) : Spends P x Q := fun s hs => by
  rw [hm]
  exact ⟨.refl _, fun a ha => hok s a ha _ hs, fun h => absurd h (hno s)⟩

theorem pure {a : α} (h : ∀ n, P n → Q a n) : Spends P (Pure.pure a : Run (σ × Meter) α) Q :=
  still (fun _ => rfl) nofun fun _ _ heq => by cases heq; exact h

theorem fail {e : Failure} : Spends P (Run.fail e : Run (σ × Meter) α) Q :=
  still (fun _ => rfl) nofun nofun

theorem record {Q : Unit → Nat → Prop} (e : Event) (h : ∀ n, P n → Q () n) :
    Spends P (Run.record e : Run (σ × Meter) Unit) Q :=
  still (fun _ => rfl) nofun fun _ _ _ => h

theorem fill {Q : Unit → Nat → Prop} (content : Text.Bytes) (h : ∀ n, P n → Q () n) :
    Spends P (TempDirectory.fill content : Run (σ × Meter) Unit) Q :=
  still (fun s => by rcases s with ⟨world, _ | ⟨latest, others⟩, made, trace⟩ <;> rfl) nofun fun _ _ _ => h

theorem call (e : Event) {f : σ × Meter → Except Failure α × (σ × Meter)} (hf : ∀ w, (f w).2.2 = w.2)
    (h : ∀ a n, P n → Q a n) : Spends P (Run.call e f) Q := by
  refine still (fun s => by rw [Run.exec_call]; exact hf s.world) (fun s heq => ?_) fun _ a _ => h a
  rw [Run.exec_call] at heq
  cases hr : (f s.world).1 <;> rw [hr] at heq <;> cases heq

/-- A value that is needed is there, or the run stops. It may stop by an overflow if enough was read. -/
theorem need {stop : Stop} {o : Option α} (hok : ∀ a, o = some a → ∀ n, P n → Q a n)
    (hnone : o = none → stop = .overflow → ∀ n, P n → 2 ^ 63 ≤ n) :
    Spends P (Run.need stop o : Run (σ × Meter) α) Q := by
  cases o with
  | some a => exact pure (hok a rfl)
  | none =>
    refine fun s hs => ⟨.refl _, nofun, fun heq => hnone rfl ?_ _ hs⟩
    cases heq
    rfl

/-- An id that cannot be cut is no overflow. -/
theorem need_splitCharacter {o : Option α} : Spends P (Run.need .splitCharacter o : Run (σ × Meter) α) fun _ => P :=
  need (fun _ _ _ => id) nofun

/-- A part may start from a reading if it may start from exactly this reading. -/
theorem of_eq (h : ∀ n, P n → Spends (· = n) x Q) : Spends P x Q := fun s hs => h _ hs s rfl

theorem mono (hx : Spends P x Q) (h : ∀ a n, Q a n → Q' a n) : Spends P x Q' := fun s hs =>
  let hout := hx s hs
  ⟨hout.goes, fun a ha => h a _ (hout.ok a ha), hout.overflow⟩

/-- A value has whatever every value of the run has. -/
theorem and {C : α → Prop} (hx : Spends P x Q) (h : ∀ a s s', x.exec s = (.ok a, s') → C a) :
    Spends P x fun a n => Q a n ∧ C a := fun s hs =>
  let hout := hx s hs
  ⟨hout.goes, fun a ha => ⟨hout.ok a ha, h a s _ (Prod.ext ha rfl)⟩, hout.overflow⟩

/-- Two parts spend one after the other. -/
theorem bind {f : α → Run (σ × Meter) β} (hx : Spends P x Q) (hf : ∀ a, Spends (Q a) (f a) R) :
    Spends P (x >>= f) R := fun s hs =>
  (hx s hs).bind fun a s' _ ha => hf a s' ha

theorem reword (hx : Spends P x Q) (f : Failure → Failure) : Spends P (x.reword f) Q := fun s hs => by
  rw [Run.exec_reword]
  have hout := hx s hs
  rcases hr : x.exec s with ⟨(e | _ | _) | a, s₁⟩ <;> rw [hr] at hout
  · exact ⟨hout.goes, nofun, nofun⟩
  all_goals exact hout

/-- An attempt spends what its body does, also if that fails. -/
theorem attempt {n : Nat} (hx : Spends (· = n) x Q) :
    Spends (· = n) x.attempt fun answer m => n ≤ m ∧ ∀ a, answer = .ok a → Q a m := fun s hs => by
  rw [Run.exec_attempt]
  have hout := hx s hs
  rcases hr : x.exec s with ⟨(e | _ | _) | a, s₁⟩ <;> rw [hr] at hout
  · refine ⟨hout.goes, fun answer heq => ⟨hs ▸ hout.goes.le, fun a ha => ?_⟩, nofun⟩
    cases heq
    cases ha
  · exact ⟨hout.goes, nofun, fun _ => hout.overflow rfl⟩
  · exact ⟨hout.goes, nofun, nofun⟩
  · refine ⟨hout.goes, fun answer heq => ⟨hs ▸ hout.goes.le, fun a' ha => ?_⟩, nofun⟩
    cases heq
    cases ha
    exact hout.ok a rfl

/-- What is done last spends on top of the body, so it keeps what holds of all later readings too. -/
theorem ensuring {last : Run (σ × Meter) Unit} (hx : Spends P x Q) (hl : Spends (fun _ => True) last fun _ _ => True)
    (hQ : ∀ a n m, Q a n → n ≤ m → Q a m) : Spends P (x.ensuring last) Q := fun s hs => by
  rw [Run.exec_ensuring]
  have hout := hx s hs
  have hlast := hl (x.exec s).2 trivial
  rcases hr : last.exec (x.exec s).2 with ⟨stop | _, s₁⟩ <;> rw [hr] at hlast
  · refine ⟨hout.goes.trans hlast.goes, nofun, fun heq => hlast.overflow ?_⟩
    cases heq
    rfl
  · exact ⟨hout.goes.trans hlast.goes, fun a ha => hQ a _ _ (hout.ok a ha) hlast.goes.le,
      fun heq => Nat.le_trans (hout.overflow heq) hlast.goes.le⟩

theorem withFile {dir : TempDirectory} {start ending : String} {onFailure : String → Failure}
    {body : Path → Run (σ × Meter) α} (h : ∀ file, Spends P (body file) Q) :
    Spends P (dir.withFile start ending onFailure body) Q := fun s hs => by
  rw [TempDirectory.exec_withFile]
  dsimp only
  split
  · exact h _ { s with temps := _ :: s.temps, made := s.made + 1 } hs
  · exact ⟨.refl _, nofun, nofun⟩

theorem notify {box : Toolbox (σ × Meter)} {origin : Origin} {level : Level} {message : Run (σ × Meter) Notice}
    (h : Spends P message fun _ => P) : Spends P (box.notify origin level message) fun _ => P := by
  unfold Toolbox.notify
  split
  · exact h.bind fun n => record _ fun _ => id
  · exact pure fun _ => id

/-- A message that names a commit. -/
theorem named {name : Option String} {message : String → Notice} :
    Spends P (do return message (← Run.need .splitCharacter name) : Run (σ × Meter) Notice) fun _ => P :=
  need_splitCharacter.bind fun _ => pure fun _ => id

end Spends

/-! ## Lintings -/

namespace Adapter

variable {a : Adapter} {box : Toolbox σ} {file : Path} {s : Session σ}

/-- A tally that a linting ends with holds no more than the report has entries. -/
theorem le_entries_of_ok {t : Tally} (h : ((a.lint box file).exec s).1 = .ok t) :
    t.Nonneg ∧ t.occurrences ≤ a.entries box file s := by
  obtain ⟨outcome, hanswer, husable⟩ := exists_usable_of_lint h
  obtain ⟨report, hreport, -, hparse⟩ := husable.report
  obtain ⟨issues, hfindings, htally⟩ := Tool.parseReport_eq_ok_iff.1 hparse
  have hentries : a.entries box file s = issues.length := by
    rw [exec_lint_fst] at h
    split at h
    · cases h
    · next hpresent => rw [entries, outcome?, if_neg hpresent, hanswer]; simp only [hreport, hfindings]
  refine ⟨fun i => ?_, hentries ▸ Tally.occurrences_ofIssues_le htally⟩
  rw [Tally.count_ofIssues htally]
  exact Int.natCast_nonneg _

/-- Only a report with too many entries overflows. -/
theorem le_entries_of_overflow (h : ((a.lint box file).exec s).1 = .error .overflow) :
    2 ^ 63 ≤ a.entries box file s := by
  rw [exec_lint_fst] at h
  split at h
  · cases h
  next hpresent =>
  cases hanswer : a.answer box file s with
  | error reason =>
    rw [hanswer] at h
    cases h
  | ok outcome =>
    have hjudge : a.judge file outcome = .error .overflow := by rwa [hanswer] at h
    rcases a.judge_cases file outcome with ⟨t, ht⟩ | ⟨-, m, hm⟩ | ⟨m, hm⟩ |
      ⟨-, bytes, issues, hbytes, hfindings, hlength⟩
    · cases ht.symm.trans hjudge
    · cases hm.symm.trans hjudge
    · cases hm.symm.trans hjudge
    · rw [entries, outcome?, if_neg hpresent, hanswer]
      simp only [reportOf_eq, hbytes, hfindings]
      exact hlength

/-- **A linting reads the meter on** by no less than its tally holds. -/
theorem spends_lint (a : Adapter) (box : Toolbox σ) (file : Path) (n : Nat) :
    Spends (· = n) ((a.metered box).lint file) fun t m => t.Nonneg ∧ n + t.occurrences ≤ m := by
  rintro s rfl
  have hexec : ((a.metered box).lint file).exec s =
      (a.lint box.beside file).exec { s with world := (s.world.1, a.meter box file s) } := rfl
  have hworld : (((a.metered box).lint file).exec s).2.world.2 = a.meter box file s := by
    rw [hexec, frame_world.lint a box.beside file]
  have hend : (((a.metered box).lint file).exec s).1 = ((a.lint box file).exec s.plain).1 :=
    (congrArg (·.1) (a.projects_metered box file s)).symm
  rw [hworld, hend]
  refine ⟨⟨Nat.le_add_right _ _, ?_⟩, fun t ht => ?_, fun hover => ?_⟩
  · cases hr : ((a.lint box file).exec s.plain).1 with
    | ok t => exact Or.inl (by rw [meter, hr])
    | error stop =>
      cases stop with
      | overflow => exact Or.inr (Nat.le_trans (le_entries_of_overflow hr) (Nat.le_add_left _ _))
      | failed e => exact Or.inl (by rw [meter, hr])
      | splitCharacter => exact Or.inl (by rw [meter, hr])
  · obtain ⟨hnonneg, hle⟩ := le_entries_of_ok ht
    refine ⟨hnonneg, ?_⟩
    rw [meter]
    push_cast
    omega
  · exact Nat.le_trans (le_entries_of_overflow hover) (Nat.le_add_left _ _)

end Adapter

namespace Bench

variable {b : Bench σ} {a : Adapter} {n : Nat}

/-- A tally that was read from the reading `n` on. -/
def Worth (n : Nat) (t : Tally) (m : Nat) : Prop :=
  t.Nonneg ∧ n + t.occurrences ≤ m

/-- Two tallies that were read from the reading `n` on. -/
def Worths (n : Nat) (r : Tally × Tally) (m : Nat) : Prop :=
  r.1.Nonneg ∧ r.2.Nonneg ∧ n + (r.1.occurrences + r.2.occurrences) ≤ m

theorem worth_empty (n : Nat) : Worth n ∅ n :=
  ⟨Tally.nonneg_empty, Int.le_of_eq (Int.add_zero _)⟩

theorem Worth.pair {pre post : Tally} {m m' : Nat} (h : Worth n pre m) (h' : Worth m post m') :
    Worths n (pre, post) m' := ⟨h.1, h'.1, by have := h.2; have := h'.2; dsimp only; omega⟩

theorem Worths.mono {r : Tally × Tally} {m m' : Nat} (h : Worths n r m) (hle : m ≤ m') : Worths n r m' :=
  ⟨h.1, h.2.1, by have := h.2.2; omega⟩

theorem spends_lintAs (side : Side) (file : Path) (n : Nat) :
    Spends (· = n) (lintAs side (a.metered b.box) file) (Worth n) :=
  (a.spends_lint b.box file n).reword _

theorem spends_lintCopy (side : Side) (n : Nat) :
    Spends (· = n) (b.beside.lintCopy (a.metered b.box) side) (Worth n) := by
  refine Spends.withFile fun file => ?_
  refine Spends.bind (Spends.reword (Spends.call _ (fun _ => rfl) fun _ _ => id) _) fun content => ?_
  have hfill : Spends (· = n) (TempDirectory.fill content : Run (σ × Meter) Unit) fun _ m => m = n :=
    Spends.fill content fun _ => id
  exact hfill.bind fun _ => (Spends.notify Spends.named).bind fun _ => spends_lintAs side file n

theorem spends_lintCopy? (n : Nat) : ∀ side? : Option Side,
    Spends (· = n) (b.beside.lintCopy? (a.metered b.box) side?) (Worth n)
  | none => Spends.pure fun _ heq => heq ▸ worth_empty n
  | some side => spends_lintCopy side n

theorem spends_visit (side : Side) (n : Nat) :
    Spends (· = n) (b.beside.visit (a.metered b.box) side) (Worth n) :=
  Spends.bind (Spends.reword (Spends.call _ (fun _ => rfl) fun _ _ => id) _) fun _ => spends_lintAs side _ n

theorem spends_announce {P : Nat → Prop} (linter : Linter (σ × Meter)) (side : Side) :
    Spends P (b.beside.announce linter side) fun _ => P :=
  Spends.notify Spends.named

theorem spends_holdTree {P : Nat → Prop} (path : Path) : Spends P (b.beside.holdTree path) fun _ => P := by
  refine Spends.bind (Spends.reword (Spends.call _ (fun _ => rfl) fun _ _ => id) _) fun clean => ?_
  cases clean
  · exact Spends.fail
  · exact Spends.reword (Spends.call _ (fun _ => rfl) fun _ _ => id) _

theorem spends_restore (initial : Head) : Spends (fun _ => True) (b.beside.restore initial) fun _ _ => True := by
  refine Spends.of_eq fun n _ => ?_
  refine Spends.bind (Spends.attempt (Spends.call _ (fun _ => rfl) fun _ _ => id)) fun answer => ?_
  cases answer
  · exact (Spends.notify Spends.named).mono fun _ _ _ => trivial
  · exact Spends.pure fun _ _ => trivial

theorem spends_lintInTree (path : Path) (pre post : Option Side) (n : Nat) :
    Spends (· = n) (b.beside.lintInTree (a.metered b.box) path pre post) (Worths n) := by
  refine (spends_holdTree path).bind fun initial => ?_
  have hrestore : Spends (fun _ => True) (b.beside.restore initial) fun _ _ => True := spends_restore initial
  have hmono : ∀ r m m', Worths n r m → m ≤ m' → Worths n r m' := fun _ _ _ => Worths.mono
  cases pre with
  | none =>
    cases post with
    | none => exact Spends.pure fun _ heq => heq ▸ (worth_empty n).pair (worth_empty n)
    | some after =>
      refine (spends_announce _ after).bind fun _ => Spends.ensuring ?_ hrestore hmono
      exact (spends_visit after n).bind fun t => Spends.pure fun m ht => (worth_empty n).pair ht
  | some before =>
    cases post with
    | none =>
      refine (spends_announce _ before).bind fun _ => Spends.ensuring ?_ hrestore hmono
      exact (spends_visit before n).bind fun t => Spends.pure fun m ht => ht.pair (worth_empty m)
    | some after =>
      refine (spends_announce _ before).bind fun _ => Spends.ensuring ?_ hrestore hmono
      refine (spends_visit before n).bind fun t => (spends_announce _ after).bind fun _ => ?_
      refine Spends.of_eq fun m ht => (spends_visit after m).bind fun t' => Spends.pure fun m' ht' => ht.pair ht'

/-- **Linting a change reads the meter on** by no less than both of its tallies hold. -/
theorem spends_lintChange (change : Change) (source target : CommitId) (n : Nat) :
    Spends (· = n) (b.beside.lintChange (a.metered b.box) change source target) (Worths n) := by
  unfold lintChange
  dsimp only
  split
  · exact spends_lintInTree _ _ _ n
  · refine (spends_lintCopy? n _).bind fun t => Spends.of_eq fun m ht => ?_
    exact (spends_lintCopy? m _).bind fun t' => Spends.pure fun m' ht' => ht.pair ht'

end Bench

end LintDelta
