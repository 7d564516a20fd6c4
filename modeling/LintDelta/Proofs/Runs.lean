import LintDelta.Linter.Adapter

/-!
# What runs leave behind

Three ways to speak about a run. How it ended: a run that goes on after a first part ended as its
parts did (`bind_eq_ok_iff`, `bind_eq_error_iff`, and their like for the other ways to build runs).
What it did to the session, however it ended: `Keeps R` says that the session it leaves is related
to the one it found. For a relation that can be chained it is enough that every part keeps it, so a
property of whole runs comes down to one of calls. Why it failed, if it did: `FailsIn P` says that every
failure has a property, and it comes down to the failures of the parts in the same way. What it ended
with, if it ended well: `EndsIn P` says that every value has a property.
-/

namespace LintDelta

variable {σ α β : Type}

namespace Toolbox

/-- The session with one more notice, if such notices are shown. -/
def noted (box : Toolbox σ) (origin : Origin) (level : Level) (n : Notice) (s : Session σ) : Session σ :=
  if box.shows origin level then { s with trace := s.trace ++ [.notice n] } else s

@[simp] theorem exec_notify_pure (box : Toolbox σ) (origin : Origin) (level : Level) (n : Notice)
    (s : Session σ) :
    (box.notify origin level (pure n)).exec s = (.ok (), box.noted origin level n s) := by
  unfold notify noted
  split
  · rw [pure_bind, Run.exec_record]
  · rfl

end Toolbox

namespace Run

/-! ## How a run ends -/

/-- After a part that ended well, a run goes on with its value. -/
theorem exec_bind_of_ok {x : Run σ α} {f : α → Run σ β} {s s₁ : Session σ} {a : α}
    (h : x.exec s = (.ok a, s₁)) : (x >>= f).exec s = (f a).exec s₁ := by
  rw [exec_bind, h]

theorem bind_eq_ok_iff {x : Run σ α} {f : α → Run σ β} {s s' : Session σ} {b : β} :
    (x >>= f).exec s = (.ok b, s') ↔ ∃ a s₁, x.exec s = (.ok a, s₁) ∧ (f a).exec s₁ = (.ok b, s') := by
  rw [exec_bind]
  constructor
  · intro h
    rcases hx : x.exec s with ⟨_ | a, s₁⟩ <;> rw [hx] at h
    · cases h
    · exact ⟨a, s₁, rfl, h⟩
  · rintro ⟨a, s₁, hx, h⟩
    rw [hx]
    exact h

theorem bind_eq_error_iff {x : Run σ α} {f : α → Run σ β} {s s' : Session σ} {stop : Stop} :
    (x >>= f).exec s = (.error stop, s') ↔
      x.exec s = (.error stop, s') ∨ ∃ a s₁, x.exec s = (.ok a, s₁) ∧ (f a).exec s₁ = (.error stop, s') := by
  rw [exec_bind]
  constructor
  · intro h
    rcases hx : x.exec s with ⟨_ | a, s₁⟩ <;> rw [hx] at h
    · cases h; exact Or.inl rfl
    · exact Or.inr ⟨a, s₁, rfl, h⟩
  · rintro (hx | ⟨a, s₁, hx, h⟩) <;> rw [hx]
    exact h

theorem need_eq_ok_iff {stop : Stop} {o : Option α} {x : α} {s s' : Session σ} :
    (need stop o).exec s = (.ok x, s') ↔ o = some x ∧ s = s' := by
  cases o <;> simp [need]

theorem need_eq_error_iff {stop stop' : Stop} {o : Option α} {s s' : Session σ} :
    (need stop o).exec s = (.error stop', s') ↔ o = none ∧ stop = stop' ∧ s = s' := by
  cases o <;> simp [need]

theorem call_eq_ok_iff {e : Event} {f : σ → Except Failure α × σ} {s s' : Session σ} {a : α} :
    (call e f).exec s = (.ok a, s') ↔
      (f s.world).1 = .ok a ∧ s' = { s with world := (f s.world).2, trace := s.trace ++ [e] } := by
  rw [exec_call, Prod.mk.injEq, eq_comm (b := s')]
  cases (f s.world).1 with
  | error e => exact ⟨fun h => (nomatch h.1), fun h => (nomatch h.1)⟩
  | ok a' => exact and_congr_left' ⟨fun h => by cases h; rfl, fun h => by cases h; rfl⟩

/-- An attempt ends well when its body does, and when its body fails. -/
theorem attempt_eq_ok_iff {x : Run σ α} {s s' : Session σ} {answer : Except Failure α} :
    x.attempt.exec s = (.ok answer, s') ↔
      (∃ a, answer = .ok a ∧ x.exec s = (.ok a, s')) ∨
      ∃ f, answer = .error f ∧ x.exec s = (.error (.failed f), s') := by
  rw [exec_attempt]
  constructor
  · intro h
    split at h
    · next a s₁ hx => cases h; exact Or.inl ⟨a, rfl, hx⟩
    · next f s₁ hx => cases h; exact Or.inr ⟨f, rfl, hx⟩
    · cases h
  · rintro (⟨a, rfl, hx⟩ | ⟨f, rfl, hx⟩) <;> rw [hx]

theorem attempt_eq_error_iff {x : Run σ α} {s s' : Session σ} {stop : Stop} :
    x.attempt.exec s = (.error stop, s') ↔ x.exec s = (.error stop, s') ∧ ∀ f, stop ≠ .failed f := by
  rw [exec_attempt]
  constructor
  · intro h
    split at h
    · cases h
    · cases h
    · next stop' s₁ hne hx =>
      cases h
      exact ⟨hx, fun f hf => hne f (hf ▸ rfl)⟩
  · rintro ⟨hx, hne⟩
    rw [hx]
    cases stop with
    | failed f => exact absurd rfl (hne f)
    | overflow => rfl
    | splitCharacter => rfl

/-- A run fails with new words where its body failed with the old ones. -/
theorem reword_eq_failed_iff {f : Failure → Failure} {x : Run σ α} {s s' : Session σ} {e : Failure} :
    (x.reword f).exec s = (.error (.failed e), s') ↔
      ∃ e₀, x.exec s = (.error (.failed e₀), s') ∧ f e₀ = e := by
  rw [exec_reword]
  constructor
  · intro h
    split at h
    · next e₀ s₁ hx => cases h; exact ⟨e₀, hx, rfl⟩
    · next hne => exact absurd h (hne e s')
  · rintro ⟨e₀, hx, rfl⟩
    rw [hx]

theorem reword_eq_ok_iff {f : Failure → Failure} {x : Run σ α} {s s' : Session σ} {a : α} :
    (x.reword f).exec s = (.ok a, s') ↔ x.exec s = (.ok a, s') := by
  rw [exec_reword]
  constructor
  · intro h
    split at h
    · cases h
    · exact h
  · intro hx
    rw [hx]

/-- A run with something to do last ends well if both do. -/
theorem ensuring_eq_ok_iff {x : Run σ α} {last : Run σ Unit} {s s' : Session σ} {a : α} :
    (x.ensuring last).exec s = (.ok a, s') ↔
      ∃ s₁, x.exec s = (.ok a, s₁) ∧ last.exec s₁ = (.ok (), s') := by
  rw [exec_ensuring]
  constructor
  · intro h
    split at h
    · next s₂ hl =>
      obtain ⟨ha, rfl⟩ := Prod.mk.inj h
      exact ⟨(x.exec s).2, Prod.ext ha rfl, hl⟩
    · cases h
  · rintro ⟨s₁, hx, hl⟩
    rw [hx, hl]

/-- A run ends well if something can be read off its value. -/
theorem exists_ok_of_toOption {x : Run σ α} {s : Session σ} {f : α → β} {y : β}
    (h : (x.exec s).1.toOption.map f = some y) : ∃ a s', x.exec s = (.ok a, s') ∧ f a = y := by
  rcases hrun : x.exec s with ⟨stop | a, s'⟩
  · rw [hrun] at h
    cases h
  · rw [hrun] at h
    exact ⟨a, s', rfl, Option.some.inj h⟩

/-! ## What a run keeps -/

/-- However a run ends, the session that it leaves is related to the one that it found. -/
def Keeps (R : Session σ → Session σ → Prop) (x : Run σ α) : Prop :=
  ∀ s, R s (x.exec s).2

/-- A relation of sessions that holds of doing nothing and of one thing after another. -/
structure Chain (R : Session σ → Session σ → Prop) : Prop where
  refl : ∀ s, R s s
  trans : ∀ {s s₁ s₂}, R s s₁ → R s₁ s₂ → R s s₂

namespace Chain

variable {R : Session σ → Session σ → Prop} (c : Chain R)
include c

theorem pure (a : α) : Keeps R (Pure.pure a : Run σ α) := fun s => c.refl s

theorem fail (f : Failure) : Keeps R (Run.fail f : Run σ α) := fun s => c.refl s

theorem get : Keeps R (MonadState.get : Run σ (Session σ)) := fun s => c.refl s

theorem ofExcept (e : Except Stop α) : Keeps R (MonadExcept.ofExcept e : Run σ α) := fun s => by
  rw [exec_ofExcept]
  exact c.refl s

theorem need (stop : Stop) (o : Option α) : Keeps R (Run.need stop o) := by
  cases o with
  | none => exact fun s => c.refl s
  | some a => exact c.pure a

/-- Two parts from a session on; the second starts where the first one led. -/
theorem bind_from {x : Run σ α} {f : α → Run σ β} {s : Session σ} (hx : R s (x.exec s).2)
    (hf : ∀ a s', x.exec s = (.ok a, s') → R s' ((f a).exec s').2) : R s ((x >>= f).exec s).2 := by
  rw [exec_bind]
  rcases hr : x.exec s with ⟨_ | a, s₁⟩ <;> rw [hr] at hx
  · exact hx
  · exact c.trans hx (hf a s₁ hr)

/-- Two parts keep what each of them keeps; the second only has to on what the first ends with. -/
theorem bind_of_ok {x : Run σ α} {f : α → Run σ β} (hx : Keeps R x)
    (hf : ∀ s a s', x.exec s = (.ok a, s') → Keeps R (f a)) : Keeps R (x >>= f) := fun s =>
  c.bind_from (hx s) fun a s₁ hr => hf s a s₁ hr s₁

theorem bind {x : Run σ α} {f : α → Run σ β} (hx : Keeps R x) (hf : ∀ a, Keeps R (f a)) :
    Keeps R (x >>= f) :=
  c.bind_of_ok hx fun _ a _ _ => hf a

theorem ensuring {x : Run σ α} {last : Run σ Unit} (hx : Keeps R x) (hl : Keeps R last) :
    Keeps R (x.ensuring last) := fun s => by
  rw [exec_ensuring_snd]
  exact c.trans (hx s) (hl (x.exec s).2)

/-- Noting a message keeps what putting it together and adding to the trace keep. -/
theorem notify {box : Toolbox σ} {origin : Origin} {level : Level} {message : Run σ Notice}
    (hm : Keeps R message) (ht : ∀ n, Keeps R (record (.notice n))) :
    Keeps R (box.notify origin level message) := by
  unfold Toolbox.notify
  split
  · exact c.bind hm ht
  · exact c.pure ()

end Chain

variable {R : Session σ → Session σ → Prop}

/-- The outside world stays as it is. -/
theorem chain_world_eq : Chain fun s s' : Session σ => s'.world = s.world :=
  ⟨fun _ => rfl, fun h h' => h'.trans h⟩

theorem Keeps.call {e : Event} {f : σ → Except Failure α × σ}
    (h : ∀ s, R s { s with world := (f s.world).2, trace := s.trace ++ [e] }) : Keeps R (call e f) :=
  fun s => by
    rw [exec_call]
    exact h s

theorem Keeps.attempt {x : Run σ α} (hx : Keeps R x) : Keeps R x.attempt := fun s => by
  rw [exec_attempt_snd]
  exact hx s

theorem Keeps.reword {x : Run σ α} (hx : Keeps R x) (f : Failure → Failure) : Keeps R (x.reword f) :=
  fun s => by
    rw [exec_reword_snd]
    exact hx s

theorem Keeps.mono {R' : Session σ → Session σ → Prop} {x : Run σ α} (hx : Keeps R x)
    (h : ∀ {s s'}, R s s' → R' s s') : Keeps R' x := fun s => h (hx s)

/-! ## How a run fails -/

/-- Every failure of a run has a property. A run that stops for another reason does not fail. -/
def FailsIn (P : Failure → Prop) (x : Run σ α) : Prop :=
  ∀ s e s', x.exec s = (.error (.failed e), s') → P e

namespace FailsIn

variable {P Q : Failure → Prop}

theorem pure (a : α) : FailsIn P (Pure.pure a : Run σ α) := nofun

theorem get : FailsIn P (MonadState.get : Run σ (Session σ)) := nofun

theorem record (e : Event) : FailsIn P (Run.record e : Run σ Unit) := nofun

theorem fail {f : Failure} (h : P f) : FailsIn P (Run.fail f : Run σ α) := fun s e s' hrun => by
  cases hrun
  exact h

theorem ofExcept {r : Except Stop α} (h : ∀ e, r = .error (.failed e) → P e) :
    FailsIn P (MonadExcept.ofExcept r : Run σ α) := fun s e s' hrun => by
  rw [exec_ofExcept] at hrun
  exact h e (congrArg (·.1) hrun)

theorem need {stop : Stop} (h : ∀ f, stop ≠ .failed f) (o : Option α) :
    FailsIn P (Run.need stop o : Run σ α) := fun s e s' hrun => by
  obtain ⟨-, hstop, -⟩ := need_eq_error_iff.1 hrun
  exact absurd hstop (h e)

theorem need_splitCharacter (o : Option α) : FailsIn P (Run.need .splitCharacter o : Run σ α) := by
  refine need ?_ o
  nofun

theorem fill (content : Text.Bytes) : FailsIn P (TempDirectory.fill content : Run σ Unit) :=
  fun _ _ _ hrun => by cases congrArg (·.1) hrun

theorem bind {x : Run σ α} {f : α → Run σ β} (hx : FailsIn P x) (hf : ∀ a, FailsIn P (f a)) :
    FailsIn P (x >>= f) := fun s e s' hrun => by
  rcases bind_eq_error_iff.1 hrun with h | ⟨a, s₁, -, h⟩
  · exact hx s e s' h
  · exact hf a s₁ e s' h

theorem call {ev : Event} {f : σ → Except Failure α × σ} (h : ∀ w e, (f w).1 = .error e → P e) :
    FailsIn P (Run.call ev f) := fun s e s' hrun => by
  rw [exec_call] at hrun
  have hanswer := congrArg (·.1) hrun
  cases hf : (f s.world).1 <;> rw [hf] at hanswer <;> cases hanswer
  exact h s.world e hf

theorem reword {f : Failure → Failure} {x : Run σ α} (hx : FailsIn Q x) (h : ∀ e, Q e → P (f e)) :
    FailsIn P (x.reword f) := fun s e s' hrun => by
  obtain ⟨e₀, hx₀, rfl⟩ := reword_eq_failed_iff.1 hrun
  exact h e₀ (hx s e₀ s' hx₀)

/-- An attempt does not fail. -/
theorem attempt (x : Run σ α) : FailsIn P x.attempt := fun _ e _ hrun =>
  absurd rfl ((attempt_eq_error_iff.1 hrun).2 e)

theorem ensuring {x : Run σ α} {last : Run σ Unit} (hx : FailsIn P x) (hl : FailsIn P last) :
    FailsIn P (x.ensuring last) := fun s e s' hrun => by
  rw [exec_ensuring] at hrun
  split at hrun
  · next s₂ h =>
    obtain ⟨he, rfl⟩ := Prod.mk.inj hrun
    exact hx s e (x.exec s).2 (Prod.ext he rfl)
  · next h =>
    cases hrun
    exact hl _ e _ h

theorem notify {box : Toolbox σ} {origin : Origin} {level : Level} {message : Run σ Notice}
    (h : FailsIn P message) : FailsIn P (box.notify origin level message) := by
  unfold Toolbox.notify
  split
  · exact h.bind fun n => FailsIn.record _
  · exact FailsIn.pure ()

theorem withFile {dir : TempDirectory} {start ending : String} {onFailure : String → Failure}
    {body : Path → Run σ α} (hfile : ∀ reason, P (onFailure reason))
    (hbody : ∀ token, FailsIn P (body (dir.path.join (TempDirectory.name start token ending)))) :
    FailsIn P (dir.withFile start ending onFailure body) := fun s e s' hrun => by
  rw [TempDirectory.exec_withFile] at hrun
  dsimp only at hrun
  split at hrun
  · obtain ⟨he, -⟩ := Prod.mk.inj hrun
    exact hbody _ _ e _ (Prod.ext he rfl)
  · cases hrun
    exact hfile _

theorem mono {x : Run σ α} (hx : FailsIn P x) (h : ∀ e, P e → Q e) : FailsIn Q x :=
  fun s e s' hrun => h e (hx s e s' hrun)

end FailsIn

/-! ## What a run ends with -/

/-- Every value with which a run ends has a property. -/
def EndsIn (P : α → Prop) (x : Run σ α) : Prop :=
  ∀ s a s', x.exec s = (.ok a, s') → P a

namespace EndsIn

variable {P : α → Prop}

theorem pure {a : α} (h : P a) : EndsIn P (Pure.pure a : Run σ α) := fun s a s' hrun => by
  cases hrun
  exact h

theorem bind {Q : β → Prop} {x : Run σ β} {f : β → Run σ α} (hx : EndsIn Q x)
    (hf : ∀ b, Q b → EndsIn P (f b)) : EndsIn P (x >>= f) := fun s a s' hrun => by
  obtain ⟨b, s₁, hb, hrest⟩ := bind_eq_ok_iff.1 hrun
  exact hf b (hx s b s₁ hb) s₁ a s' hrest

/-- Two parts end with what the second ends with, whatever the first does. -/
theorem after {x : Run σ β} {f : β → Run σ α} (hf : ∀ b, EndsIn P (f b)) : EndsIn P (x >>= f) :=
  fun s a s' hrun => by
    obtain ⟨b, s₁, -, hrest⟩ := bind_eq_ok_iff.1 hrun
    exact hf b s₁ a s' hrest

theorem reword {x : Run σ α} (hx : EndsIn P x) (f : Failure → Failure) : EndsIn P (x.reword f) :=
  fun s a s' hrun => hx s a s' (reword_eq_ok_iff.1 hrun)

theorem ensuring {x : Run σ α} (hx : EndsIn P x) (last : Run σ Unit) : EndsIn P (x.ensuring last) :=
  fun s a s' hrun => by
    obtain ⟨s₁, ha, -⟩ := ensuring_eq_ok_iff.1 hrun
    exact hx s a s₁ ha

theorem withFile {dir : TempDirectory} {start ending : String} {onFailure : String → Failure}
    {body : Path → Run σ α} (hbody : ∀ path, EndsIn P (body path)) :
    EndsIn P (dir.withFile start ending onFailure body) := fun s a s' hrun => by
  rw [TempDirectory.exec_withFile] at hrun
  dsimp only at hrun
  split at hrun
  · obtain ⟨ha, -⟩ := Prod.mk.inj hrun
    exact hbody _ _ a _ (Prod.ext ha rfl)
  · cases hrun

end EndsIn

end Run

end LintDelta
