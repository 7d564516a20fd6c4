import LintDelta.Proofs.Runs
import LintDelta.VersionControl

/-!
# The calls of a run and their answers

The trace of a run lists its calls, but not what was answered. Version control is a function of the state
of the world, and nothing else changes that state, so the answers follow from the trace: `calls` plays it
again. `Tells Φ` says of a run that, however it ends, `Φ` holds of its end and of its calls with their
answers. Such statements come down to the parts of a run (`Tells.bind`, and its like for the other ways to
build runs), where the calls of one part come before those of the next (`calls_append`).
-/

namespace LintDelta

variable {σ : Type}

/-- What a call answered, as far as a contrast looks at it. -/
inductive Answer where
  | done
  /-- Whether the working tree is clean. -/
  | clean (yes : Bool)
  /-- Where HEAD is. -/
  | place (head : Head)
  | fault (e : Failure)
  deriving DecidableEq, Repr

namespace Answer

/-- The answer that stands for a result. -/
def of {α : Type} (ok : α → Answer) : Except Failure α → Answer
  | .ok x => ok x
  | .error e => fault e

/-- Whether linting cannot go on after an answer. -/
def isTrouble : Answer → Bool
  | done | place _ | clean true => false
  | clean false | fault _ => true

end Answer

/-- A call with its answer. -/
abbrev Call := Event × Answer

namespace VersionControl

/-- What is answered to a call, and the world after it. A tool and a notice do not change the world. -/
def answer (vcs : VersionControl σ) (w : σ) : Event → Answer × σ
  | .resolveRange range => let r := vcs.resolveRange range w; (.of (fun _ => .done) r.1, r.2)
  | .changes source target => let r := vcs.changes source target w; (.of (fun _ => .done) r.1, r.2)
  | .isClean => let r := vcs.isClean w; (.of .clean r.1, r.2)
  | .head => let r := vcs.head w; (.of .place r.1, r.2)
  | .checkout target => let r := vcs.checkout target w; (.of (fun _ => .done) r.1, r.2)
  | .readBlob blob => let r := vcs.readBlob blob w; (.of (fun _ => .done) r.1, r.2)
  | .tool .. | .notice _ => (.done, w)

/-- The world after a trace. -/
def worldAfter (vcs : VersionControl σ) (w : σ) (events : List Event) : σ :=
  events.foldl (fun w e => (vcs.answer w e).2) w

/-- The calls and tools of a trace with their answers. Notices are left out. -/
def calls (vcs : VersionControl σ) : σ → List Event → List Call
  | _, [] => []
  | w, .notice _ :: events => vcs.calls w events
  | w, e :: events => (e, (vcs.answer w e).1) :: vcs.calls (vcs.answer w e).2 events

variable (vcs : VersionControl σ)

theorem worldAfter_append (w : σ) (first second : List Event) :
    vcs.worldAfter w (first ++ second) = vcs.worldAfter (vcs.worldAfter w first) second :=
  List.foldl_append

/-- The calls of one part come before those of the next, which finds the world as the first left it. -/
theorem calls_append (w : σ) (first second : List Event) :
    vcs.calls w (first ++ second) = vcs.calls w first ++ vcs.calls (vcs.worldAfter w first) second := by
  induction first generalizing w with
  | nil => rfl
  | cons e rest ih =>
    cases e with
    | notice n => exact ih w
    | _ => exact congrArg (_ :: ·) (ih _)

/-- What is called is among what is done. -/
theorem mem_of_mem_calls {vcs : VersionControl σ} {w : σ} {events : List Event} {call : Call}
    (h : call ∈ vcs.calls w events) : call.1 ∈ events := by
  induction events generalizing w with
  | nil => cases h
  | cons e rest ih =>
    cases e with
    | notice n => exact List.mem_cons_of_mem _ (ih h)
    | _ =>
      rcases List.mem_cons.1 h with rfl | h
      · exact List.mem_cons_self
      · exact List.mem_cons_of_mem _ (ih h)

theorem mem_calls_of_tool {w : σ} {events : List Event} {program : String}
    {arguments : List Text.Bytes} (h : .tool program arguments ∈ events) :
    (.tool program arguments, .done) ∈ vcs.calls w events := by
  induction events generalizing w with
  | nil => cases h
  | cons e rest ih =>
    rcases List.mem_cons.1 h with rfl | hrest
    · exact List.mem_cons_self
    · cases e with
      | notice n => exact ih hrest
      | _ => exact List.mem_cons_of_mem _ (ih hrest)

end VersionControl

/-! ## What a run tells -/

namespace Run

variable {α β : Type} {vcs : VersionControl σ}

/-- However a run ends, it adds calls to the trace, the world is where they lead, and `Φ` holds of the end
and of the calls with their answers. -/
def Tells (vcs : VersionControl σ) (Φ : Except Stop α → List Call → Prop) (x : Run σ α) : Prop :=
  ∀ s, ∃ events, (x.exec s).2.trace = s.trace ++ events ∧
    (x.exec s).2.world = vcs.worldAfter s.world events ∧ Φ (x.exec s).1 (vcs.calls s.world events)

namespace Tells

variable {Φ : Except Stop α → List Call → Prop} {Ψ : Except Stop β → List Call → Prop}

theorem mono {Φ' : Except Stop α → List Call → Prop} {x : Run σ α} (hx : Tells vcs Φ x)
    (h : ∀ r seen, Φ r seen → Φ' r seen) : Tells vcs Φ' x := fun s => by
  obtain ⟨events, ht, hw, hΦ⟩ := hx s
  exact ⟨events, ht, hw, h _ _ hΦ⟩

/-- A run that leaves the trace and the world alone. -/
theorem still {x : Run σ α} (ht : ∀ s, (x.exec s).2.trace = s.trace) (hw : ∀ s, (x.exec s).2.world = s.world)
    (hΦ : ∀ s, Φ (x.exec s).1 []) : Tells vcs Φ x := fun s =>
  ⟨[], by rw [ht, List.append_nil], hw s, hΦ s⟩

theorem pure {a : α} (h : Φ (.ok a) []) : Tells vcs Φ (Pure.pure a : Run σ α) :=
  still (fun _ => rfl) (fun _ => rfl) fun _ => h

theorem fail {e : Failure} (h : Φ (.error (.failed e)) []) : Tells vcs Φ (Run.fail e : Run σ α) :=
  still (fun _ => rfl) (fun _ => rfl) fun _ => h

theorem ofExcept {r : Except Stop α} (h : Φ r []) : Tells vcs Φ (MonadExcept.ofExcept r : Run σ α) :=
  still (fun s => by rw [exec_ofExcept]) (fun s => by rw [exec_ofExcept]) fun s => by
    rw [exec_ofExcept]
    exact h

theorem need {stop : Stop} {o : Option α} (hok : ∀ a, o = some a → Φ (.ok a) [])
    (hstop : o = none → Φ (.error stop) []) : Tells vcs Φ (Run.need stop o) := by
  cases o with
  | none => exact still (fun _ => rfl) (fun _ => rfl) fun _ => hstop rfl
  | some a => exact pure (hok a rfl)

theorem fill {Φ : Except Stop Unit → List Call → Prop} {content : Text.Bytes} (h : Φ (.ok ()) []) :
    Tells vcs Φ (TempDirectory.fill content) :=
  still (fun s => by rcases s with ⟨world, _ | ⟨latest, others⟩, made, trace⟩ <;> rfl)
    (fun s => by rcases s with ⟨world, _ | ⟨latest, others⟩, made, trace⟩ <;> rfl) fun _ => h

/-- Noting something is no call. -/
theorem note {Φ : Except Stop Unit → List Call → Prop} {n : Notice} (h : Φ (.ok ()) []) :
    Tells vcs Φ (Run.record (.notice n)) := fun _ => ⟨[.notice n], rfl, rfl, h⟩

theorem tool {Φ : Except Stop Unit → List Call → Prop} {program : String} {arguments : List Text.Bytes}
    (h : Φ (.ok ()) [(.tool program arguments, .done)]) :
    Tells vcs Φ (Run.record (.tool program arguments)) := fun _ => ⟨[.tool program arguments], rfl, rfl, h⟩

/-- A call tells its answer. -/
theorem call {e : Event} {f : σ → Except Failure α × σ} {ok : α → Answer} (hn : ∀ n, e ≠ .notice n)
    (hf : ∀ w, vcs.answer w e = (.of ok (f w).1, (f w).2))
    (h : ∀ answer, Φ (answer.mapError .failed) [(e, .of ok answer)]) : Tells vcs Φ (Run.call e f) := fun s => by
  rw [exec_call]
  refine ⟨[e], rfl, by rw [VersionControl.worldAfter, List.foldl_cons, List.foldl_nil, hf], ?_⟩
  have hcalls : vcs.calls s.world [e] = [(e, .of ok (f s.world).1)] := by
    cases e with
    | notice n => exact absurd rfl (hn n)
    | _ => rw [VersionControl.calls, hf, VersionControl.calls]; nofun
  rw [hcalls]
  exact h _

/-- **Two parts tell** what the first tells with its calls, or else what both tell with the calls of both. -/
theorem bind {x : Run σ α} {f : α → Run σ β} (hx : Tells vcs Φ x)
    (hstop : ∀ stop seen, Φ (.error stop) seen → Ψ (.error stop) seen)
    (hok : ∀ a seen, Φ (.ok a) seen → Tells vcs (fun r seen' => Ψ r (seen ++ seen')) (f a)) :
    Tells vcs Ψ (x >>= f) := fun s => by
  rw [exec_bind]
  obtain ⟨events, ht, hw, hΦ⟩ := hx s
  rcases hr : x.exec s with ⟨stop | a, s₁⟩ <;> rw [hr] at ht hw hΦ
  · exact ⟨events, ht, hw, hstop stop _ hΦ⟩
  · obtain ⟨events', ht', hw', hΨ⟩ := hok a _ hΦ s₁
    dsimp only at ht hw
    refine ⟨events ++ events', by rw [ht', ht, List.append_assoc], ?_, ?_⟩
    · rw [hw', hw, VersionControl.worldAfter_append]
    · rw [VersionControl.calls_append, ← hw]
      exact hΨ

/-- Looking at the session tells nothing. -/
theorem get_bind {f : Session σ → Run σ β} (h : ∀ s, Tells vcs Ψ (f s)) :
    Tells vcs Ψ (MonadState.get >>= f) := fun s => by
  rw [exec_bind, exec_get]
  exact h s s

/-- A run that leaves the session that another one leaves tells the same calls. -/
theorem of_exec_snd {x : Run σ α} {y : Run σ β} (hx : Tells vcs Φ x) (hy : ∀ s, (y.exec s).2 = (x.exec s).2)
    (h : ∀ s seen, Φ (x.exec s).1 seen → Ψ (y.exec s).1 seen) : Tells vcs Ψ y := fun s => by
  obtain ⟨events, ht, hw, hΦ⟩ := hx s
  rw [← hy] at ht hw
  exact ⟨events, ht, hw, h s _ hΦ⟩

theorem reword {Ψ : Except Stop α → List Call → Prop} {x : Run σ α} {f : Failure → Failure}
    (hx : Tells vcs Φ x) (hok : ∀ a seen, Φ (.ok a) seen → Ψ (.ok a) seen)
    (hfailed : ∀ e seen, Φ (.error (.failed e)) seen → Ψ (.error (.failed (f e))) seen)
    (hstop : ∀ stop seen, (∀ e, stop ≠ .failed e) → Φ (.error stop) seen → Ψ (.error stop) seen) :
    Tells vcs Ψ (x.reword f) := by
  refine hx.of_exec_snd (exec_reword_snd f x) fun s seen hΦ => ?_
  rw [exec_reword]
  rcases hr : x.exec s with ⟨(e | _ | _) | a, s₁⟩ <;> rw [hr] at hΦ
  · exact hfailed e seen hΦ
  · exact hstop _ seen nofun hΦ
  · exact hstop _ seen nofun hΦ
  · exact hok a seen hΦ

/-- An attempt tells what its body tells, where a failure is an answer. -/
theorem attempt {Ψ : Except Stop (Except Failure α) → List Call → Prop} {x : Run σ α} (hx : Tells vcs Φ x)
    (hok : ∀ a seen, Φ (.ok a) seen → Ψ (.ok (.ok a)) seen)
    (hfailed : ∀ e seen, Φ (.error (.failed e)) seen → Ψ (.ok (.error e)) seen)
    (hstop : ∀ stop seen, (∀ e, stop ≠ .failed e) → Φ (.error stop) seen → Ψ (.error stop) seen) :
    Tells vcs Ψ x.attempt := by
  refine hx.of_exec_snd (exec_attempt_snd x) fun s seen hΦ => ?_
  rw [exec_attempt]
  rcases hr : x.exec s with ⟨(e | _ | _) | a, s₁⟩ <;> rw [hr] at hΦ
  · exact hfailed e seen hΦ
  · exact hstop _ seen nofun hΦ
  · exact hstop _ seen nofun hΦ
  · exact hok a seen hΦ

/-- What is done last tells its calls behind those of the body, whose end is the end of both. -/
theorem ensuring {Ψ : Except Stop α → List Call → Prop} {Λ : Except Stop Unit → List Call → Prop}
    {x : Run σ α} {last : Run σ Unit} (hx : Tells vcs Φ x) (hl : Tells vcs Λ last)
    (hok : ∀ r seen seen', Φ r seen → Λ (.ok ()) seen' → Ψ r (seen ++ seen'))
    (hstop : ∀ r stop seen seen', Φ r seen → Λ (.error stop) seen' → Ψ (.error stop) (seen ++ seen')) :
    Tells vcs Ψ (x.ensuring last) := fun s => by
  obtain ⟨events, ht, hw, hΦ⟩ := hx s
  obtain ⟨events', ht', hw', hΛ⟩ := hl (x.exec s).2
  rw [hw] at hΛ
  refine ⟨events ++ events', ?_, ?_, ?_⟩
  · rw [exec_ensuring_snd, ht', ht, List.append_assoc]
  · rw [exec_ensuring_snd, hw', hw, VersionControl.worldAfter_append]
  · rw [VersionControl.calls_append, exec_ensuring]
    rcases hr : last.exec (x.exec s).2 with ⟨stop | _, s₁⟩ <;> rw [hr] at hΛ
    · exact hstop _ stop _ _ hΦ hΛ
    · exact hok _ _ _ hΦ hΛ

theorem withFile {dir : TempDirectory} {start ending : String} {onFailure : String → Failure}
    {body : Path → Run σ α} (hfile : ∀ reason, Φ (.error (.failed (onFailure reason))) [])
    (hbody : ∀ path, Tells vcs Φ (body path)) : Tells vcs Φ (dir.withFile start ending onFailure body) :=
  fun s => by
    rw [TempDirectory.exec_withFile]
    dsimp only
    split
    · exact hbody _ _
    · exact ⟨[], (List.append_nil _).symm, rfl, hfile _⟩

/-! ### Notices -/

/-- A message is put together without a call, and can stop the run for one reason only. -/
def Mute (reason : Stop) (r : Except Stop α) (seen : List Call) : Prop :=
  seen = [] ∧ ∀ stop, r = .error stop → stop = reason

theorem mute_pure {reason : Stop} (a : α) : Tells vcs (Mute reason) (Pure.pure a : Run σ α) :=
  pure ⟨rfl, nofun⟩

theorem mute_need (reason : Stop) (o : Option α) : Tells vcs (Mute reason) (Run.need reason o) :=
  need (fun _ _ => ⟨rfl, nofun⟩) fun _ => ⟨rfl, fun _ heq => by cases heq; rfl⟩

theorem mute_bind {reason : Stop} {x : Run σ α} {f : α → Run σ β} (hx : Tells vcs (Mute reason) x)
    (hf : ∀ a, Tells vcs (Mute reason) (f a)) : Tells vcs (Mute reason) (x >>= f) :=
  bind hx (fun stop _ ⟨hseen, h⟩ => ⟨hseen, fun _ heq => by cases heq; exact h stop rfl⟩)
    fun a _ ⟨hseen, _⟩ => hseen ▸ hf a

variable {Φ : Except Stop Unit → List Call → Prop} {box : Toolbox σ} {origin : Origin} {level : Level}

/-- A notice tells nothing, unless its message stops the run. -/
theorem notify (reason : Stop) {message : Run σ Notice} (hm : Tells vcs (Mute reason) message)
    (hok : Φ (.ok ()) []) (hstop : Φ (.error reason) []) : Tells vcs Φ (box.notify origin level message) := by
  unfold Toolbox.notify
  split
  · refine bind hm (fun stop seen ⟨hseen, h⟩ => ?_) fun n seen ⟨hseen, _⟩ => ?_
    · rw [hseen, h stop rfl]
      exact hstop
    · rw [hseen]
      exact note hok
  · exact pure hok

theorem notify_pure {n : Notice} (hok : Φ (.ok ()) []) :
    Tells vcs Φ (box.notify origin level (Pure.pure n)) := by
  unfold Toolbox.notify
  split
  · exact note hok
  · exact pure hok

/-- A notice whose message names a commit. -/
theorem notify_named {name : Option String} {message : String → Notice} (hok : Φ (.ok ()) [])
    (hstop : Φ (.error .splitCharacter) []) : Tells vcs Φ (box.notify origin level do
      return message (← Run.need .splitCharacter name)) :=
  notify _ (mute_bind (mute_need _ _) fun _ => mute_pure _) hok hstop

/-! ### Calls -/

/-- A call whose failure is reworded tells what was answered. -/
theorem call_reword {e : Event} {f : σ → Except Failure α × σ} (ok : α → Answer) (g : Failure → Failure)
    (hn : ∀ n, e ≠ .notice n) (hf : ∀ w, vcs.answer w e = (.of ok (f w).1, (f w).2)) :
    Tells vcs (fun r seen => (∃ x, r = .ok x ∧ seen = [(e, ok x)]) ∨
      ∃ e₀, r = .error (.failed (g e₀)) ∧ seen = [(e, .fault e₀)]) ((Run.call e f).reword g) := by
  refine reword (Φ := fun r seen => ∃ answer : Except Failure α, r = answer.mapError .failed ∧
    seen = [(e, .of ok answer)]) (call hn hf fun answer => ⟨answer, rfl, rfl⟩) ?_ ?_ ?_
  · rintro x _ ⟨_ | x', hr, rfl⟩ <;> cases hr
    exact Or.inl ⟨x, rfl, rfl⟩
  · rintro e₀ _ ⟨_ | x', hr, rfl⟩ <;> cases hr
    exact Or.inr ⟨e₀, rfl, rfl⟩
  · rintro stop _ hstop ⟨e' | x', hr, rfl⟩ <;> cases hr
    exact absurd rfl (hstop e')

/-- An attempted call tells what was answered. -/
theorem call_attempt {e : Event} {f : σ → Except Failure α × σ} (ok : α → Answer) (hn : ∀ n, e ≠ .notice n)
    (hf : ∀ w, vcs.answer w e = (.of ok (f w).1, (f w).2)) :
    Tells vcs (fun r seen => ∃ answer : Except Failure α, r = .ok answer ∧ seen = [(e, .of ok answer)])
      (Run.call e f).attempt := by
  refine attempt (Φ := fun r seen => ∃ answer : Except Failure α, r = answer.mapError .failed ∧
    seen = [(e, .of ok answer)]) (call hn hf fun answer => ⟨answer, rfl, rfl⟩) ?_ ?_ ?_
  · rintro x _ ⟨_ | x', hr, rfl⟩ <;> cases hr
    exact ⟨.ok x, rfl, rfl⟩
  · rintro e₀ _ ⟨_ | x', hr, rfl⟩ <;> cases hr
    exact ⟨.error e₀, rfl, rfl⟩
  · rintro stop _ hstop ⟨e' | x', hr, rfl⟩ <;> cases hr
    exact absurd rfl (hstop e')

end Tells

end Run

/-! ## From one session on -/

/-- One session follows another by some calls with their answers. -/
def VersionControl.Between (vcs : VersionControl σ) (s s' : Session σ) (seen : List Call) : Prop :=
  ∃ events, s'.trace = s.trace ++ events ∧ s'.world = vcs.worldAfter s.world events ∧
    vcs.calls s.world events = seen

namespace VersionControl.Between

variable {vcs : VersionControl σ} {s s₁ s₂ : Session σ} {seen seen' : List Call}

theorem trans (h : vcs.Between s s₁ seen) (h' : vcs.Between s₁ s₂ seen') : vcs.Between s s₂ (seen ++ seen') := by
  obtain ⟨events, ht, hw, rfl⟩ := h
  obtain ⟨events', ht', hw', rfl⟩ := h'
  refine ⟨events ++ events', by rw [ht', ht, List.append_assoc], ?_, ?_⟩
  · rw [hw', hw, VersionControl.worldAfter_append]
  · rw [VersionControl.calls_append, hw]

end VersionControl.Between

namespace VersionControl

variable {vcs : VersionControl σ}

/-- The calls lead from one world to another: each is answered in the world that the calls before it left. -/
def Leads (vcs : VersionControl σ) : σ → List Call → σ → Prop
  | w, [], w' => w' = w
  | w, (e, answer) :: seen, w' => (vcs.answer w e).1 = answer ∧ vcs.Leads (vcs.answer w e).2 seen w'

theorem leads_calls (w : σ) (events : List Event) :
    vcs.Leads w (vcs.calls w events) (vcs.worldAfter w events) := by
  induction events generalizing w with
  | nil => rfl
  | cons e rest ih =>
    cases e with
    | notice n => exact ih w
    | _ => exact ⟨rfl, ih _⟩

/-- The calls between two sessions lead from the world of the one to that of the other. -/
theorem Between.leads {s s' : Session σ} {seen : List Call} (h : vcs.Between s s' seen) :
    vcs.Leads s.world seen s'.world := by
  obtain ⟨events, -, hworld, rfl⟩ := h
  exact hworld ▸ leads_calls s.world events

theorem leads_append {w w' : σ} {first second : List Call} :
    vcs.Leads w (first ++ second) w' ↔ ∃ w₁, vcs.Leads w first w₁ ∧ vcs.Leads w₁ second w' := by
  induction first generalizing w with
  | nil => simp [Leads]
  | cons call rest ih =>
    obtain ⟨e, answer⟩ := call
    simp [Leads, ih, and_assoc]

end VersionControl

namespace Run

variable {α β : Type}

/-- From a session on, a run makes calls, and `Φ` holds of its end and of the calls with their answers. -/
def TellsFrom (vcs : VersionControl σ) (Φ : Except Stop α → List Call → Prop) (x : Run σ α) (s : Session σ) :
    Prop :=
  ∃ seen, vcs.Between s (x.exec s).2 seen ∧ Φ (x.exec s).1 seen

variable {vcs : VersionControl σ} {Φ : Except Stop α → List Call → Prop} {Ψ : Except Stop β → List Call → Prop}

theorem Tells.from {x : Run σ α} (h : Tells vcs Φ x) (s : Session σ) : TellsFrom vcs Φ x s := by
  obtain ⟨events, ht, hw, hΦ⟩ := h s
  exact ⟨_, ⟨events, ht, hw, rfl⟩, hΦ⟩

namespace TellsFrom

variable {s : Session σ}

theorem mono {Φ' : Except Stop α → List Call → Prop} {x : Run σ α} (hx : TellsFrom vcs Φ x s)
    (h : ∀ r seen, Φ r seen → Φ' r seen) : TellsFrom vcs Φ' x s := by
  obtain ⟨seen, hbetween, hΦ⟩ := hx
  exact ⟨seen, hbetween, h _ _ hΦ⟩

/-- Two parts from a session on, where the second part starts where the first one led. -/
theorem bind {x : Run σ α} {f : α → Run σ β} (hx : TellsFrom vcs Φ x s)
    (hstop : ∀ stop seen s₁, x.exec s = (.error stop, s₁) → Φ (.error stop) seen → Ψ (.error stop) seen)
    (hok : ∀ a seen s₁, x.exec s = (.ok a, s₁) → Φ (.ok a) seen →
      TellsFrom vcs (fun r seen' => Ψ r (seen ++ seen')) (f a) s₁) : TellsFrom vcs Ψ (x >>= f) s := by
  obtain ⟨seen, hbetween, hΦ⟩ := hx
  unfold TellsFrom
  rw [exec_bind]
  rcases hr : x.exec s with ⟨stop | a, s₁⟩ <;> rw [hr] at hbetween hΦ
  · exact ⟨seen, hbetween, hstop stop seen s₁ hr hΦ⟩
  · obtain ⟨seen', hbetween', hΨ⟩ := hok a seen s₁ hr hΦ
    exact ⟨seen ++ seen', hbetween.trans hbetween', hΨ⟩

/-- An attempt makes the calls of its body. -/
theorem attempt {X : List Call → Prop} {x : Run σ α} (hx : TellsFrom vcs (fun _ seen => X seen) x s) :
    TellsFrom vcs (fun _ seen => X seen) x.attempt s := by
  obtain ⟨seen, hbetween, hX⟩ := hx
  refine ⟨seen, ?_, hX⟩
  rw [exec_attempt_snd]
  exact hbetween

/-- What is done last tells its calls behind those of the body. -/
theorem ensuring {Ψ : Except Stop α → List Call → Prop} {Λ : Except Stop Unit → List Call → Prop}
    {x : Run σ α} {last : Run σ Unit} (hx : TellsFrom vcs Φ x s) (hl : Tells vcs Λ last)
    (h : ∀ r r' r'' seen seen', Φ r seen → Λ r' seen' → Ψ r'' (seen ++ seen')) :
    TellsFrom vcs Ψ (x.ensuring last) s := by
  obtain ⟨seen, hbetween, hΦ⟩ := hx
  obtain ⟨seen', hbetween', hΛ⟩ := hl.from (x.exec s).2
  refine ⟨seen ++ seen', ?_, h _ _ _ _ _ hΦ hΛ⟩
  rw [exec_ensuring_snd]
  exact hbetween.trans hbetween'

end TellsFrom

end Run

end LintDelta
