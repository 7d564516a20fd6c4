import Mathlib.Data.List.Forall2
import Mathlib.Data.Option.Basic

/-!
# Lists under partial functions

A list has images under a partial function if each of its elements has one, and the images are taken element by element
(`forall₂_of_mapM`, `mapM_of_forall₂`).
-/

namespace LintDelta

variable {α β γ : Type}

/-- A list has images under a partial function if every element has. -/
theorem exists_mapM_iff {f : α → Option β} {l : List α} :
    (∃ ys, l.mapM f = some ys) ↔ ∀ x ∈ l, ∃ y, f x = some y := by
  induction l with
  | nil => simp
  | cons x l ih =>
    rw [List.forall_mem_cons, ← ih]
    simp only [List.mapM_cons, bind, Option.bind_eq_some_iff, pure, Option.some.injEq]
    constructor
    · rintro ⟨_, y, hy, ys, hys, -⟩
      exact ⟨⟨y, hy⟩, ys, hys⟩
    · rintro ⟨⟨y, hy⟩, ys, hys⟩
      exact ⟨_, y, hy, ys, hys, rfl⟩

/-- What holds of every element and its image holds element by element of a list and its images. -/
theorem forall₂_of_mapM {f : α → Option β} {R : α → β → Prop} {xs : List α} {ys : List β}
    (hf : ∀ x ∈ xs, ∀ y, f x = some y → R x y) (h : xs.mapM f = some ys) : List.Forall₂ R xs ys := by
  induction xs generalizing ys with
  | nil =>
    cases h
    exact .nil
  | cons x xs ih =>
    rw [List.mapM_cons] at h
    obtain ⟨y, hy, h⟩ := Option.bind_eq_some_iff.1 h
    obtain ⟨ys, hys, h⟩ := Option.bind_eq_some_iff.1 h
    cases h
    exact .cons (hf x List.mem_cons_self y hy) (ih (fun x' hx' => hf x' (List.mem_cons_of_mem x hx')) hys)

theorem mapM_of_forall₂ {f : α → Option β} {xs : List α} {ys : List β} (h : List.Forall₂ (f · = some ·) xs ys) :
    xs.mapM f = some ys := by
  induction h with
  | nil => rfl
  | cons hy _ ih =>
    rw [List.mapM_cons, hy, ih]
    rfl

theorem mapM_eq_some_map {f : α → Option β} {g : α → β} {l : List α} (h : ∀ x ∈ l, f x = some (g x)) :
    l.mapM f = some (l.map g) :=
  mapM_of_forall₂ (List.forall₂_map_right_iff.2 (List.forall₂_same.2 h))

/-- Elements that are got back from their images one by one are got back as a list. -/
theorem mapM_map_eq_some {put : α → β} {get : β → Option α} {l : List α} (h : ∀ x ∈ l, get (put x) = some x) :
    (l.map put).mapM get = some l :=
  mapM_of_forall₂ (List.forall₂_map_left_iff.2 (List.forall₂_same.2 h))

/-- A function that is defined on more has the same images. -/
theorem mapM_mono {f g : α → Option β} (hfg : ∀ x y, f x = some y → g x = some y) {l : List α} {ys : List β}
    (h : l.mapM f = some ys) : l.mapM g = some ys :=
  mapM_of_forall₂ (forall₂_of_mapM (fun x _ => hfg x) h)

/-- What is the same of an element and its image is the same of a list and its images. -/
theorem map_eq_of_mapM {f : α → Option β} {g : β → γ} {g' : α → γ} (hg : ∀ x y, f x = some y → g y = g' x)
    {l : List α} {ys : List β} (h : l.mapM f = some ys) : ys.map g = l.map g' := by
  have hsame : List.Forall₂ (· = ·) (l.map g') (ys.map g) := by
    rw [List.forall₂_map_left_iff, List.forall₂_map_right_iff]
    exact forall₂_of_mapM (fun x _ y hy => (hg x y hy).symm) h
  rw [List.forall₂_eq_eq_eq] at hsame
  exact hsame.symm

theorem length_of_mapM {f : α → Option β} {l : List α} {ys : List β} (h : l.mapM f = some ys) :
    ys.length = l.length :=
  (forall₂_of_mapM (fun _ _ _ hy => hy) h).length_eq.symm

/-- The images of the images. -/
theorem map_mapM (f : α → Option β) (g : β → γ) (l : List α) :
    (l.mapM f).map (List.map g) = l.mapM fun x => (f x).map g := by
  induction l with
  | nil => rfl
  | cons x l ih =>
    rw [List.mapM_cons, List.mapM_cons, ← ih]
    cases f x with
    | none => rfl
    | some y => cases l.mapM f <;> rfl

/-- Elements that are put into a form and got back from it one by one are got back as a list. -/
theorem exists_mapM_mapM {put : α → Option β} {take : β → Option γ} {get : γ → α} {P : β → Prop}
    {xs : List α} (h : ∀ x ∈ xs, ∃ y, put x = some y ∧ P y ∧ ∃ z, take y = some z ∧ get z = x) :
    ∃ ys, xs.mapM put = some ys ∧ (∀ y ∈ ys, P y) ∧ ∃ zs, ys.mapM take = some zs ∧ zs.map get = xs := by
  induction xs with
  | nil => exact ⟨[], rfl, nofun, [], rfl, rfl⟩
  | cons x xs ih =>
    obtain ⟨y, hput, hy, z, htake, hget⟩ := h x List.mem_cons_self
    obtain ⟨ys, hputs, hys, zs, htakes, hgets⟩ := ih fun x' hx' => h x' (List.mem_cons_of_mem x hx')
    refine ⟨y :: ys, by rw [List.mapM_cons, hput, hputs]; rfl, List.forall_mem_cons.2 ⟨hy, hys⟩, z :: zs, ?_, ?_⟩
    · rw [List.mapM_cons, htake, htakes]
      rfl
    · rw [List.map_cons, hget, hgets]

end LintDelta
