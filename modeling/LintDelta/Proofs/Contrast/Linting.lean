import LintDelta.Proofs.Calls
import LintDelta.Proofs.Contrast.Attribution
import LintDelta.Proofs.Contrast.Frames
import LintDelta.Proofs.Linter.Judging

/-!
# The calls for one change

What linting a change comes to, read off the calls that it makes and what was answered. A part that lints a side
is `Honest`: it fails as a whole exactly if a blob is lost, and it ends well only if nothing went wrong. Linting
in the tree makes one call more, which puts HEAD back and whose answer does not matter, so a change is `Settled`
(`settled_lintChange`).

Tools are no part of version control. A change that ends well got from its tools what it needed, at moments on
the way (`lintedAt_of_lintChange`).
-/

namespace LintDelta

open Run (Tells FailsIn)

variable {σ α β : Type}

/-- The failure of a call that ends the contrast: a blob that cannot be read, for a reason that is not about
one file. -/
def lostBlob? : Call → Option Failure
  | (.readBlob _, .fault (.git m)) => some (.git m)
  | (.readBlob _, .fault (.configuration m)) => some (.configuration m)
  | _ => none

/-- Whether a call told where HEAD is. -/
def tellsHead : Call → Bool
  | (.head, .place _) => true
  | _ => false

/-- The calls up to the one that puts HEAD back. That is the last one, if it was told where HEAD is. -/
def beforeRestoring (seen : List Call) : List Call :=
  if seen.any tellsHead then seen.dropLast else seen

/-! ## Honest parts -/

/-- A part that lints a side fails as a whole exactly if a blob is lost, and ends well only if nothing went
wrong. It makes calls of some kinds only. -/
structure Honest (P : Event → Prop) (r : Except Stop α) (seen : List Call) : Prop where
  ends : ∀ e, seen.findSome? lostBlob? = some e ↔ r = .error (.failed e) ∧ e.isPerFile = false
  clear : ∀ a, r = .ok a → ∀ call ∈ seen, call.2.isTrouble = false
  calls : ∀ call ∈ seen, P call.1

/-- All that was called is tools. -/
def OnlyTools (seen : List Call) : Prop :=
  ∀ call ∈ seen, ∃ program arguments, call = (.tool program arguments, .done)

namespace Honest

variable {P : Event → Prop}

theorem ends_of_none {r : Except Stop α} {seen : List Call} (hnone : seen.findSome? lostBlob? = none)
    (h : ∀ e, r = .error (.failed e) → e.isPerFile = true) (e : Failure) :
    seen.findSome? lostBlob? = some e ↔ r = .error (.failed e) ∧ e.isPerFile = false := by
  rw [hnone]
  constructor
  · intro heq
    cases heq
  · rintro ⟨hr, he⟩
    rw [h e hr] at he
    cases he

/-- A part without a call, that can only fail for its file. -/
theorem nil {r : Except Stop α} (h : ∀ e, r = .error (.failed e) → e.isPerFile = true) : Honest P r [] where
  ends := ends_of_none rfl h
  clear _ _ _ hcall := by cases hcall
  calls _ hcall := by cases hcall

theorem stop {stop : Stop} {seen : List Call} (h : Honest P (.error stop : Except Stop α) seen) :
    Honest P (.error stop : Except Stop β) seen where
  ends e := (h.ends e).trans (and_congr_left' ⟨fun heq => by cases heq; rfl, fun heq => by cases heq; rfl⟩)
  clear := nofun
  calls := h.calls

/-- No blob was lost by a part that ended well. -/
theorem findSome?_eq_none {a : α} {seen : List Call} (h : Honest P (.ok a : Except Stop α) seen) :
    seen.findSome? lostBlob? = none :=
  Option.eq_none_iff_forall_ne_some.2 fun e he => by cases ((h.ends e).1 he).1

theorem append {a : α} {r : Except Stop β} {seen seen' : List Call} (h : Honest P (.ok a : Except Stop α) seen)
    (h' : Honest P r seen') : Honest P r (seen ++ seen') where
  ends e := by
    rw [List.findSome?_append, h.findSome?_eq_none, Option.none_or]
    exact h'.ends e
  clear b hr call hcall := (List.mem_append.1 hcall).elim (h.clear a rfl call) (h'.clear b hr call)
  calls call hcall := (List.mem_append.1 hcall).elim (h.calls call) (h'.calls call)

variable {vcs : VersionControl σ}

/-- One honest part after another. -/
theorem bind {x : Run σ α} {f : α → Run σ β} (hx : Tells vcs (Honest P) x)
    (hf : ∀ a, Tells vcs (Honest P) (f a)) : Tells vcs (Honest P) (x >>= f) :=
  Tells.bind hx (fun _ _ h => h.stop) fun a _ h => (hf a).mono fun _ _ h' => h.append h'

theorem pure (a : α) : Tells vcs (Honest P) (Pure.pure a : Run σ α) :=
  Tells.pure (nil nofun)

theorem notify {box : Toolbox σ} {origin : Origin} {level : Level} {name : Option String}
    {message : String → Notice} : Tells vcs (Honest P) (box.notify origin level do
      return message (← Run.need .splitCharacter name)) :=
  Tells.notify_named (nil nofun) (nil nofun)

/-- A call whose failure is reworded, if a lost blob is all that fails as a whole. -/
theorem call {e : Event} {f : σ → Except Failure α × σ} {g : Failure → Failure}
    (hn : ∀ n, e ≠ .notice n) (hf : ∀ w, vcs.answer w e = (.of (fun _ => .done) (f w).1, (f w).2))
    (hfault : ∀ e₀ e₁, lostBlob? (e, .fault e₀) = some e₁ ↔ g e₀ = e₁ ∧ e₁.isPerFile = false)
    (hdone : lostBlob? (e, .done) = none) (hP : P e) : Tells vcs (Honest P) ((Run.call e f).reword g) := by
  refine (Tells.call_reword _ g hn hf).mono fun r seen h => ?_
  rcases h with ⟨x, rfl, rfl⟩ | ⟨e₀, rfl, rfl⟩
  · refine ⟨ends_of_none ?_ (fun _ heq => nomatch heq), fun _ _ call hcall => ?_, fun call hcall => ?_⟩
    · exact List.findSome?_eq_none_iff.2 fun call hcall => List.mem_singleton.1 hcall ▸ hdone
    · obtain rfl := List.mem_singleton.1 hcall
      rfl
    · obtain rfl := List.mem_singleton.1 hcall
      exact hP
  · refine ⟨fun e₁ => ?_, (fun _ heq => nomatch heq), fun call hcall => ?_⟩
    · simp only [List.findSome?_cons, List.findSome?_nil, Except.error.injEq, Stop.failed.injEq, ← hfault e₀ e₁]
      cases lostBlob? (e, .fault e₀) <;> rfl
    · obtain rfl := List.mem_singleton.1 hcall
      exact hP

end Honest

/-! ## Tools -/

namespace Adapter

variable (vcs : VersionControl σ)

/-- Executing a command runs its program once at most. -/
theorem tells_execute (box : Toolbox σ) (linter : String) (command : Command) (path : Path) :
    Tells vcs (fun _ seen => ∀ call ∈ seen, call = (.tool command.program command.arguments, .done))
      (box.execute linter command path) := by
  unfold Toolbox.execute
  refine Tells.bind (Φ := fun _ seen => seen = []) (Tells.notify_pure rfl) (fun _ _ h => ?_) ?_
  · subst h
    exact fun _ hcall => nomatch hcall
  rintro _ _ rfl
  refine Tells.get_bind fun s => ?_
  dsimp only
  split
  · refine Tells.bind (Φ := fun _ seen => seen = [(.tool command.program command.arguments, .done)])
      (Tells.tool rfl) (fun _ _ h => ?_) fun _ seen h => Tells.pure ?_ <;> subst h
    · exact fun call hcall => List.mem_singleton.1 hcall
    · exact fun call hcall => List.mem_singleton.1 hcall
  · exact Tells.fail fun _ hcall => nomatch hcall

/-- Linting a file runs the program of the adapter on it, with or without a report file. -/
theorem tells_lint (a : Adapter) (box : Toolbox σ) (path : Path) :
    Tells vcs (fun _ seen => ∀ call ∈ seen, ∃ report, call = (.tool a.program (a.arguments report path), .done))
      (a.lint box path) := by
  have hwith (report : Option Path) : Tells vcs
      (fun _ seen => ∀ call ∈ seen, ∃ report, call = (.tool a.program (a.arguments report path), .done))
      (a.lintWith box path report) := by
    unfold lintWith
    refine Tells.bind (tells_execute vcs box _ _ path) (fun _ _ h call hcall => ⟨report, h call hcall⟩)
      fun _ seen h => Tells.ofExcept ?_
    rw [List.append_nil]
    exact fun call hcall => ⟨report, h call hcall⟩
  unfold lint
  split
  · exact Tells.withFile (fun _ _ hcall => nomatch hcall) fun report => hwith (some report)
  · exact hwith none

theorem onlyTools_lint (a : Adapter) (box : Toolbox σ) (path : Path) :
    Tells vcs (fun _ seen => OnlyTools seen) (a.lint box path) :=
  (a.tells_lint vcs box path).mono fun _ _ h call hcall =>
    let ⟨_, heq⟩ := h call hcall
    ⟨_, _, heq⟩

/-- What an adapter blames on a file concerns that file alone. -/
theorem Blames.isPerFile {a : Adapter} {path : Path} {e : Failure} (h : a.Blames path e) :
    e.isPerFile = true := by
  rcases h with ⟨m, rfl⟩ | ⟨-, habout, -⟩
  · rfl
  · cases e with
    | resource => rfl
    | _ => exact absurd habout id

end Adapter

/-! ## Sides -/

namespace Bench

variable {b : Bench σ} {a : Adapter}

/-- Putting HEAD back is one checkout, whose failure is only noted. -/
theorem tells_restore (name : Head) :
    Tells b.vcs (fun r seen => (∃ answer, seen = [(.checkout name, answer)]) ∧
      (r = .ok () ∨ r = .error .splitCharacter)) (b.restore name) := by
  unfold restore
  refine Tells.bind (Tells.call_attempt (fun _ => .done) nofun fun _ => rfl) ?_ ?_
  · rintro stop seen ⟨_, heq, -⟩
    cases heq
  · rintro answer seen ⟨_, -, rfl⟩
    cases answer with
    | ok _ => exact Tells.pure ⟨⟨_, rfl⟩, Or.inl rfl⟩
    | error e => exact Tells.notify_named ⟨⟨_, rfl⟩, Or.inl rfl⟩ ⟨⟨_, rfl⟩, Or.inr rfl⟩

end Bench

/-- Linting a change fails as a whole exactly if a blob is lost, and ends well only if nothing went wrong
before HEAD was put back. If it was told where HEAD is, then it checked that out last. -/
structure Settled (r : Except Stop α) (seen : List Call) : Prop where
  ends : ∀ e, seen.findSome? lostBlob? = some e ↔ r = .error (.failed e) ∧ e.isPerFile = false
  clear : ∀ a, r = .ok a → ∀ call ∈ beforeRestoring seen, call.2.isTrouble = false
  restored : r ≠ .error .splitCharacter → (∃ call ∈ seen, tellsHead call = true) →
    ∃ name answer, (.head, .place name) ∈ seen ∧ seen.getLast? = some (.checkout name, answer)
  calls : ∀ call ∈ seen, ∀ source target, call.1 ≠ .changes source target

namespace Settled

/-- No blob is read in the tree, and no changes are asked for. -/
def Tame (seen : List Call) : Prop :=
  ∀ call ∈ seen, lostBlob? call = none ∧ ∀ source target, call.1 ≠ .changes source target

theorem Tame.append {seen seen' : List Call} (h : Tame seen) (h' : Tame seen') : Tame (seen ++ seen') :=
  fun call hcall => (List.mem_append.1 hcall).elim (h call) (h' call)

theorem Tame.findSome?_eq_none {seen : List Call} (h : Tame seen) : seen.findSome? lostBlob? = none :=
  List.findSome?_eq_none_iff.2 fun call hcall => (h call hcall).1

/-- What was asked before a side is checked out. -/
def asked (name : Head) : List Call := [(.isClean, .clean true), (.head, .place name)]

end Settled

namespace Bench

variable {b : Bench σ} {a : Adapter}

/-- On the way from one session to another, the tool of an adapter was started on the file for a side, and a
tally could be read from what it left. -/
def LintedAt (b : Bench σ) (a : Adapter) (side : Side) (t : Tally) (s s' : Session σ) : Prop :=
  ∃ (file : Path) (now : Session σ) (outcome : Outcome), s.trace <+: now.trace ∧ now.trace <+: s'.trace ∧
    b.StandsFor a side file ∧ a.answer b.box file now = .ok outcome ∧ a.Usable file outcome t

variable {side : Side} {t : Tally} {s s' s₁ s₂ : Session σ}

theorem LintedAt.extend (h : b.LintedAt a side t s₁ s₂) (hs : s.trace <+: s₁.trace)
    (hs' : s₂.trace <+: s'.trace) : b.LintedAt a side t s s' := by
  obtain ⟨file, now, outcome, hfirst, hlast, h⟩ := h
  exact ⟨file, now, outcome, hs.trans hfirst, hlast.trans hs', h⟩

end Bench

end LintDelta
