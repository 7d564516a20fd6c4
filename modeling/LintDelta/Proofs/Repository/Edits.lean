import LintDelta.OrderedMap
import LintDelta.Path

/-!
# Edits of a map

An edit says what a map holds at a path before it and what it holds there after it. It is made only where the map
holds what the edit says. Edits of a map are also edits of a part of it, such as its files.

Main statements: edits that lead from one map to another lead from the part of the one to the same part of the
other, and edits of different paths that say what two maps hold lead from the one to the other if they name every
path at which the two differ.
-/

namespace LintDelta

namespace OrderedMap

variable {κ ν μ : Type} [Ord κ]

/-- Binds a key, or forgets it. -/
def set (m : OrderedMap κ ν) (k : κ) : Option ν → OrderedMap κ ν
  | some v => m.insert k v
  | none => m.erase k

/-- The values that have an image, as their images. -/
def filterMap (f : ν → Option μ) (m : OrderedMap κ ν) : OrderedMap κ μ :=
  ⟨m.bindings.filterMap fun b => (f b.2).map (b.1, ·)⟩

theorem ordered_filterMap {m : OrderedMap κ ν} (h : m.Ordered) (f : ν → Option μ) : (m.filterMap f).Ordered := by
  refine List.pairwise_filterMap.2 (h.imp ?_)
  intro a b hlt a' ha b' hb
  obtain ⟨v, -, rfl⟩ := Option.map_eq_some_iff.1 ha
  obtain ⟨w, -, rfl⟩ := Option.map_eq_some_iff.1 hb
  exact hlt

theorem find?_set_self [Std.LawfulEqCmp (compare (α := κ))] {m : OrderedMap κ ν} (h : m.Ordered)
    (k : κ) (v : Option ν) : (m.set k v).find? k = v := by
  cases v with
  | some v => exact find?_insert_self m k v
  | none => exact find?_erase_self h k

variable [Std.TransCmp (compare (α := κ))] [Std.LawfulEqCmp (compare (α := κ))]

theorem ordered_set {m : OrderedMap κ ν} (h : m.Ordered) (k : κ) (v : Option ν) : (m.set k v).Ordered := by
  cases v with
  | some v => exact ordered_insert h k v
  | none => exact ordered_erase h k

theorem find?_set_of_ne {m : OrderedMap κ ν} (h : m.Ordered) {k k' : κ} (hne : k' ≠ k) (v : Option ν) :
    (m.set k v).find? k' = m.find? k' := by
  cases v with
  | some v => exact find?_insert_of_ne m v hne
  | none => exact find?_erase_of_ne h hne

theorem find?_filterMap {m : OrderedMap κ ν} (h : m.Ordered) (f : ν → Option μ) (k : κ) :
    (m.filterMap f).find? k = (m.find? k).bind f := by
  apply Option.ext
  intro w
  rw [← mem_bindings_iff (ordered_filterMap h f), Option.bind_eq_some_iff]
  simp only [filterMap, List.mem_filterMap, Option.map_eq_some_iff, Prod.exists, Prod.mk.injEq]
  constructor
  · rintro ⟨k', v, hmem, w', hw, rfl, rfl⟩
    exact ⟨v, (mem_bindings_iff h).1 hmem, hw⟩
  · rintro ⟨v, hfind, hw⟩
    exact ⟨k, v, (mem_bindings_iff h).2 hfind, w, hw, rfl, rfl⟩

theorem filterMap_set {m : OrderedMap κ ν} (h : m.Ordered) (f : ν → Option μ) (k : κ) (v : Option ν) :
    (m.set k v).filterMap f = (m.filterMap f).set k (v.bind f) := by
  have hpart := ordered_filterMap h f
  apply eq_of_find?_eq (ordered_filterMap (ordered_set h k v) f) (ordered_set hpart k (v.bind f))
  intro k'
  rw [find?_filterMap (ordered_set h k v)]
  by_cases hk : k' = k
  · subst hk
    rw [find?_set_self h, find?_set_self hpart]
  · rw [find?_set_of_ne h hk, find?_set_of_ne hpart hk, find?_filterMap h]

/-- Setting a key to the value that it has changes nothing. -/
theorem set_find?_self {m : OrderedMap κ ν} (h : m.Ordered) (k : κ) : m.set k (m.find? k) = m := by
  apply eq_of_find?_eq (ordered_set h k _) h
  intro k'
  by_cases hk : k' = k
  · subst hk
    exact find?_set_self h k' _
  · exact find?_set_of_ne h hk _

theorem set_set {m : OrderedMap κ ν} (h : m.Ordered) (k : κ) (v w : Option ν) : (m.set k v).set k w = m.set k w := by
  have hset := ordered_set h k v
  apply eq_of_find?_eq (ordered_set hset k w) (ordered_set h k w)
  intro k'
  by_cases hk : k' = k
  · subst hk
    rw [find?_set_self hset, find?_set_self h]
  · rw [find?_set_of_ne hset hk, find?_set_of_ne h hk, find?_set_of_ne h hk]

end OrderedMap

/-- What a map holds at a path before and after an edit. -/
structure Edit (ν : Type) where
  path : Path
  before : Option ν
  after : Option ν
  deriving DecidableEq, Repr

namespace Edit

variable {ν μ : Type}

/-- The edits of a path that holds this before and that after: none if it holds nothing at all. -/
def between (path : Path) : Option ν → Option ν → List (Edit ν)
  | none, none => []
  | before, after => [⟨path, before, after⟩]

/-- What an edit of a map is for the values that have an image. -/
def part (f : ν → Option μ) (e : Edit ν) : List (Edit μ) :=
  between e.path (e.before.bind f) (e.after.bind f)

theorem flatMap_part_between (f : ν → Option μ) (path : Path) (before after : Option ν) :
    (between path before after).flatMap (part f) = between path (before.bind f) (after.bind f) := by
  cases before with
  | none =>
    cases after with
    | none => rfl
    | some w => simp [between, part]
  | some v => simp [between, part]

/-! ## Edits that tell two maps apart -/

/-- Edits of different paths that say what the two maps hold there, with every path at which the two differ. -/
structure Covers (edits : List (Edit ν)) (old new : OrderedMap Path ν) : Prop where
  nodup : (edits.map (·.path)).Nodup
  holds : ∀ e ∈ edits, old.find? e.path = e.before ∧ new.find? e.path = e.after
  elsewhere : ∀ path ∉ edits.map (·.path), old.find? path = new.find? path

theorem Covers.perm {edits edits' : List (Edit ν)} {old new : OrderedMap Path ν} (h : Covers edits old new)
    (hperm : edits'.Perm edits) : Covers edits' old new where
  nodup := (hperm.map _).nodup_iff.2 h.nodup
  holds e he := h.holds e (hperm.mem_iff.1 he)
  elsewhere path hpath := h.elsewhere path (fun hmem => hpath ((hperm.map _).mem_iff.2 hmem))

/-- After its first edit the others tell the rest apart. -/
theorem Covers.tail {e : Edit ν} {edits : List (Edit ν)} {old new : OrderedMap Path ν} (hold : old.Ordered)
    (h : Covers (e :: edits) old new) : Covers edits (old.set e.path e.after) new := by
  obtain ⟨hfresh, hnodup⟩ := List.nodup_cons.1 h.nodup
  refine ⟨hnodup, ?_, ?_⟩
  · intro e' he'
    have hne : e'.path ≠ e.path := by
      intro heq
      exact hfresh (List.mem_map.2 ⟨e', he', heq⟩)
    rw [OrderedMap.find?_set_of_ne hold hne]
    exact h.holds e' (List.mem_cons_of_mem _ he')
  · intro path hpath
    by_cases hp : path = e.path
    · subst hp
      rw [OrderedMap.find?_set_self hold, (h.holds e List.mem_cons_self).2]
    · rw [OrderedMap.find?_set_of_ne hold hp]
      exact h.elsewhere path (by simpa [hp] using hpath)

/-! ## Making edits -/

variable [DecidableEq ν]

/-- Makes an edit, if the map holds what the edit says. -/
def apply (m : OrderedMap Path ν) (e : Edit ν) : Option (OrderedMap Path ν) :=
  if m.find? e.path = e.before then some (m.set e.path e.after) else none

/-- Makes edits one after another, as long as the map holds what they say. -/
def run (edits : List (Edit ν)) (m : OrderedMap Path ν) : Option (OrderedMap Path ν) :=
  edits.foldlM apply m

theorem apply_eq_some_iff {m m' : OrderedMap Path ν} {e : Edit ν} :
    apply m e = some m' ↔ m.find? e.path = e.before ∧ m.set e.path e.after = m' := by
  simp [apply]

theorem run_nil (m : OrderedMap Path ν) : run [] m = some m := rfl

theorem run_cons_eq_some_iff {m m' : OrderedMap Path ν} {e : Edit ν} {edits : List (Edit ν)} :
    run (e :: edits) m = some m' ↔ m.find? e.path = e.before ∧ run edits (m.set e.path e.after) = some m' := by
  simp only [run, List.foldlM_cons, Option.bind_eq_bind, Option.bind_eq_some_iff, apply_eq_some_iff]
  constructor
  · rintro ⟨-, ⟨hfind, rfl⟩, hrest⟩
    exact ⟨hfind, hrest⟩
  · rintro ⟨hfind, hrest⟩
    exact ⟨_, ⟨hfind, rfl⟩, hrest⟩

theorem run_append_eq_some_iff {m m' : OrderedMap Path ν} {first second : List (Edit ν)} :
    run (first ++ second) m = some m' ↔ ∃ middle, run first m = some middle ∧ run second middle = some m' := by
  simp only [run, List.foldlM_append, Option.bind_eq_bind, Option.bind_eq_some_iff]

theorem ordered_of_run {edits : List (Edit ν)} {m m' : OrderedMap Path ν} (h : m.Ordered)
    (hrun : run edits m = some m') : m'.Ordered := by
  induction edits generalizing m with
  | nil =>
    cases hrun
    exact h
  | cons e edits ih => exact ih (OrderedMap.ordered_set h _ _) (run_cons_eq_some_iff.1 hrun).2

/-- A path that holds what it is said to hold is edited. -/
theorem run_between {m : OrderedMap Path ν} (h : m.Ordered) {path : Path} {before after : Option ν}
    (hfind : m.find? path = before) : run (between path before after) m = some (m.set path after) := by
  unfold between
  split
  · rw [run_nil, ← hfind, OrderedMap.set_find?_self h]
  · exact run_cons_eq_some_iff.2 ⟨hfind, rfl⟩

/-- A value is replaced in one edit or in two. -/
theorem run_replace {m m' : OrderedMap Path ν} (h : m.Ordered) {path : Path} {v w : ν}
    (hrun : run [⟨path, some v, some w⟩] m = some m') :
    run [⟨path, some v, none⟩, ⟨path, none, some w⟩] m = some m' := by
  obtain ⟨hfind, hdone⟩ := run_cons_eq_some_iff.1 hrun
  refine run_cons_eq_some_iff.2 ⟨hfind, run_cons_eq_some_iff.2 ⟨OrderedMap.find?_set_self h path none, ?_⟩⟩
  rw [OrderedMap.set_set h]
  exact hdone

/-- **Edits of a map edit its part**: from the part of the one map to that of the other. -/
theorem run_flatMap_part [DecidableEq μ] {edits : List (Edit ν)} {m m' : OrderedMap Path ν} (h : m.Ordered)
    (f : ν → Option μ) (hrun : run edits m = some m') :
    run (edits.flatMap (part f)) (m.filterMap f) = some (m'.filterMap f) := by
  induction edits generalizing m with
  | nil =>
    cases hrun
    rfl
  | cons e edits ih =>
    obtain ⟨hfind, hrest⟩ := run_cons_eq_some_iff.1 hrun
    have hpart : (m.filterMap f).find? e.path = e.before.bind f := by
      rw [OrderedMap.find?_filterMap h, hfind]
    have hfirst : run (e.part f) (m.filterMap f) = some ((m.set e.path e.after).filterMap f) := by
      rw [OrderedMap.filterMap_set h]
      exact run_between (OrderedMap.ordered_filterMap h f) hpart
    rw [List.flatMap_cons]
    exact run_append_eq_some_iff.2 ⟨_, hfirst, ih (OrderedMap.ordered_set h _ _) hrest⟩

/-- **Edits that tell two maps apart** lead from the one to the other, in whatever order they stand. -/
theorem Covers.run {edits : List (Edit ν)} {old new : OrderedMap Path ν} (hold : old.Ordered) (hnew : new.Ordered)
    (h : Covers edits old new) : run edits old = some new := by
  induction edits generalizing old with
  | nil =>
    have heq : old = new := OrderedMap.eq_of_find?_eq hold hnew (fun path => h.elsewhere path List.not_mem_nil)
    rw [run_nil, heq]
  | cons e edits ih =>
    exact run_cons_eq_some_iff.2
      ⟨(h.holds e List.mem_cons_self).1, ih (OrderedMap.ordered_set hold _ _) (h.tail hold)⟩

end Edit

end LintDelta
