import LintDelta.Proofs.Repository.Edits
import LintDelta.Repository.TreeDiff
import Mathlib.Data.List.Permutation
import Mathlib.Data.List.Perm.Subperm
import Mathlib.Data.List.Nodup

/-!
# Comparisons as edit scripts

A list of tree changes is an edit script from one snapshot to another if its edits, made one after another, turn the
one into the other. The plain comparison is one, since every path at which the snapshots differ is edited once. With
renames it stays one: a rename is a deletion and an addition that stand together. Copies are left out, because a
modified file that lends its old content loses its modification.

Main statements: a comparison that does not look for copies is an edit script, and where no path switches between a
file and something else, none of its changes pairs a file with something else.
-/

namespace LintDelta

/-- The entry of a node; a directory has none of its own. -/
def Node.entry? : Node → Option Entry
  | entry e => some e
  | directory => none

namespace TreeChange

/-- What a change does to the entries of a snapshot. What comes from elsewhere first leaves its source; the source of
a copy stays. -/
def edits : TreeChange → List (Edit Entry)
  | addition path node => Edit.between path none node.entry?
  | deletion path node => Edit.between path node.entry? none
  | modification path before after => Edit.between path before.entry? after.entry?
  | derivation source before path after copy =>
    (if copy then [] else Edit.between source before.entry? none) ++ Edit.between path none after.entry?

/-- Changes that lead from one snapshot to another. -/
def IsScript (script : List TreeChange) (old new : Snapshot) : Prop :=
  Edit.run (script.flatMap edits) old = some new

instance (script : List TreeChange) (old new : Snapshot) : Decidable (IsScript script old new) :=
  inferInstanceAs (Decidable (_ = _))

/-- No file is paired with something else. -/
def Uniform : TreeChange → Prop
  | addition .. | deletion .. => True
  | modification _ before after | derivation _ before _ after _ => before.fileBlob.isSome = after.fileBlob.isSome

instance : DecidablePred Uniform
  | addition .. | deletion .. => inferInstanceAs (Decidable True)
  | modification .. | derivation .. => inferInstanceAs (Decidable (_ = _))

end TreeChange

/-- No path switches between a file and something else. -/
def Snapshot.Steady (old new : Snapshot) : Prop :=
  ∀ p a b, old.find? p = some a → new.find? p = some b → a.fileBlob.isSome = b.fileBlob.isSome

namespace TreeDiff

open TreeChange (edits IsScript)

variable {old new : Snapshot}

/-! ## The plain comparison -/

/-- The edits of a path at which two snapshots differ. -/
def differing (old new : Snapshot) (p : Path) : List (Edit Entry) :=
  if old.find? p = new.find? p then [] else [⟨p, old.find? p, new.find? p⟩]

theorem bind_entry?_nodeAt (s : Snapshot) (p : Path) : (nodeAt s p).bind Node.entry? = s.find? p := by
  unfold nodeAt
  split
  · next e he => exact he.symm
  · next hnone =>
    rw [hnone]
    split <;> rfl

theorem flatMap_edits_differencesAt (old new : Snapshot) (p : Path) :
    (differencesAt old new p).flatMap edits = differing old new p := by
  rw [differing, ← bind_entry?_nodeAt old, ← bind_entry?_nodeAt new, differencesAt]
  rcases nodeAt old p with _ | (a | _) <;> rcases nodeAt new p with _ | (b | _)
  case some.entry.some.entry =>
    by_cases hab : a = b
    · simp [Node.entry?, hab]
    · simp [Node.entry?, edits, Edit.between, hab]
  all_goals simp [Node.entry?, edits, Edit.between]

theorem flatMap_edits_plain (old new : Snapshot) :
    (plain old new).flatMap edits = (walk old new).flatMap (differing old new) := by
  rw [plain, List.flatMap_assoc]
  simp only [flatMap_edits_differencesAt]

theorem map_path_flatMap_differing (ps : List Path) :
    (ps.flatMap (differing old new)).map (·.path) = ps.filter fun p => old.find? p ≠ new.find? p := by
  induction ps with
  | nil => rfl
  | cons p ps ih =>
    rw [List.flatMap_cons, List.map_append, ih]
    by_cases hp : old.find? p = new.find? p <;> simp [differing, hp]

theorem nodup_walk (old new : Snapshot) : (walk old new).Nodup :=
  (List.mergeSort_perm _ _).nodup_iff.2 (OrderedMap.nodup_distinct _)

theorem mem_walk {p : Path} (h : p ∈ old.keys ∨ p ∈ new.keys) : p ∈ walk old new := by
  rw [walk, List.mem_mergeSort, OrderedMap.mem_distinct, List.mem_append]
  have hpaths (s : Snapshot) (hs : p ∈ s.keys) : p ∈ paths s := by
    apply List.mem_flatMap.2
    exact ⟨p, hs, List.mem_append_right _ (List.mem_singleton_self p)⟩
  exact h.imp (hpaths old) (hpaths new)

/-- The edits of the plain comparison tell the snapshots apart. -/
theorem covers_plain (hold : old.Ordered) (hnew : new.Ordered) :
    Edit.Covers ((plain old new).flatMap edits) old new := by
  rw [flatMap_edits_plain]
  refine ⟨?_, ?_, ?_⟩
  · rw [map_path_flatMap_differing]
    exact (nodup_walk old new).filter _
  · intro e he
    obtain ⟨p, -, he⟩ := List.mem_flatMap.1 he
    unfold differing at he
    split at he
    · cases he
    · obtain rfl := List.mem_singleton.1 he
      exact ⟨rfl, rfl⟩
  · intro p hp
    by_contra hne
    apply hp
    rw [map_path_flatMap_differing, List.mem_filter]
    refine ⟨mem_walk ?_, by simpa using hne⟩
    rw [OrderedMap.mem_keys_iff hold, OrderedMap.mem_keys_iff hnew, ← Option.isSome_iff_exists,
      ← Option.isSome_iff_exists]
    -- a path that neither snapshot lists holds nothing in both
    by_contra hneither
    rw [not_or, Option.not_isSome_iff_eq_none, Option.not_isSome_iff_eq_none] at hneither
    exact hne (hneither.1.trans hneither.2.symm)

/-! ## Which changes there are -/

/-- A difference at a path is the deletion of what stood there, the addition of what stands there now, or the
modification of an entry. -/
theorem mem_differencesAt {p : Path} {c : TreeChange} (h : c ∈ differencesAt old new p) :
    (∃ a, nodeAt old p = some a ∧ c = .deletion p a) ∨ (∃ b, nodeAt new p = some b ∧ c = .addition p b) ∨
      ∃ a b, nodeAt old p = some (.entry a) ∧ nodeAt new p = some (.entry b) ∧
        c = .modification p (.entry a) (.entry b) := by
  unfold differencesAt at h
  split at h
  · cases h
  · next a ha _ => exact Or.inl ⟨a, ha, List.mem_singleton.1 h⟩
  · next b _ hb => exact Or.inr (Or.inl ⟨b, hb, List.mem_singleton.1 h⟩)
  · cases h
  · next a b ha hb =>
    split at h
    · cases h
    · exact Or.inr (Or.inr ⟨a, b, ha, hb, List.mem_singleton.1 h⟩)
  · next a b _ _ ha hb =>
    rcases List.mem_pair.1 h with rfl | rfl
    · exact Or.inl ⟨a, ha, rfl⟩
    · exact Or.inr (Or.inl ⟨b, hb, rfl⟩)

theorem path_of_mem_differencesAt {p : Path} {c : TreeChange} (h : c ∈ differencesAt old new p) : c.path = p := by
  rcases mem_differencesAt h with ⟨a, -, rfl⟩ | ⟨b, -, rfl⟩ | ⟨a, b, -, -, rfl⟩ <;> rfl

theorem nodup_differencesAt (old new : Snapshot) (p : Path) : (differencesAt old new p).Nodup := by
  unfold differencesAt
  split
  case h_5 => split <;> simp
  all_goals simp

theorem nodup_plain (old new : Snapshot) : (plain old new).Nodup := by
  refine List.nodup_flatMap.2 ⟨fun p _ => nodup_differencesAt old new p, (nodup_walk old new).imp ?_⟩
  intro p q hne c hp hq
  exact hne ((path_of_mem_differencesAt hp).symm.trans (path_of_mem_differencesAt hq))

/-- A plain difference says what stands at its path. -/
theorem mem_plain {c : TreeChange} (h : c ∈ plain old new) :
    (∃ a, nodeAt old c.path = some a ∧ c = .deletion c.path a) ∨
      (∃ b, nodeAt new c.path = some b ∧ c = .addition c.path b) ∨
      ∃ a b, nodeAt old c.path = some (.entry a) ∧ nodeAt new c.path = some (.entry b) ∧
        c = .modification c.path (.entry a) (.entry b) := by
  obtain ⟨p, -, hp⟩ := List.mem_flatMap.1 h
  obtain rfl := path_of_mem_differencesAt hp
  exact mem_differencesAt hp

theorem nodeAt_of_addition {p : Path} {b : Node} (h : .addition p b ∈ plain old new) : nodeAt new p = some b := by
  simpa [TreeChange.path] using mem_plain h

theorem nodeAt_of_deletion {p : Path} {a : Node} (h : .deletion p a ∈ plain old new) : nodeAt old p = some a := by
  simpa [TreeChange.path] using mem_plain h

/-! ## Ends and pairings -/

theorem subperm_map {α β : Type} {l l' : List α} (f : α → β) (h : l.Subperm l') : (l.map f).Subperm (l'.map f) := by
  obtain ⟨m, hperm, hsub⟩ := h
  exact ⟨m.map f, hperm.map f, hsub.map f⟩

theorem nodup_of_subperm {α : Type} {l l' : List α} (h : l.Subperm l') (hnodup : l'.Nodup) : l.Nodup := by
  obtain ⟨m, hperm, hsub⟩ := h
  exact hperm.nodup_iff.1 (hsub.nodup hnodup)

/-- The addition of a file that may be an end. -/
def End.addition (e : End) : TreeChange := .addition e.path e.node

/-- The deletion of a file that may be an end. -/
def End.deletion (e : End) : TreeChange := .deletion e.path e.node

/-- Ends that are taken from changes give changes back. -/
theorem subperm_map_sortEnds {f : TreeChange → Option End} {g : End → TreeChange}
    (h : ∀ c e, f c = some e → g e = c) (changes : List TreeChange) :
    ((sortEnds (changes.filterMap f)).map g).Subperm changes := by
  have hsort : ((sortEnds (changes.filterMap f)).map g).Perm ((changes.filterMap f).map g) :=
    (List.mergeSort_perm _ _).map g
  refine hsort.subperm.trans (List.Sublist.subperm ?_)
  clear hsort
  induction changes with
  | nil => exact .slnil
  | cons c changes ih =>
    rw [List.filterMap_cons]
    split
    · exact ih.cons c
    · next e he =>
      rw [List.map_cons, h c e he]
      exact ih.cons_cons c

/-- An end is a file, and where it was taken from. -/
theorem End.of_eq_some {p : Path} {n : Node} {e : End} (h : End.of p n = some e) :
    e.path = p ∧ e.node = n ∧ e.node.fileBlob.isSome = true := by
  obtain ⟨content, hcontent, rfl⟩ := Option.map_eq_some_iff.1 h
  exact ⟨rfl, rfl, by simp [Node.fileBlob, hcontent]⟩

theorem subperm_map_additions (changes : List TreeChange) :
    ((additions changes).map End.addition).Subperm changes := by
  apply subperm_map_sortEnds
  intro c e h
  cases c with
  | addition p n =>
    obtain ⟨rfl, rfl, -⟩ := End.of_eq_some h
    rfl
  | _ => cases h

theorem subperm_map_deletions (changes : List TreeChange) :
    ((deletions changes).map End.deletion).Subperm changes := by
  apply subperm_map_sortEnds
  intro c e h
  cases c with
  | deletion p n =>
    obtain ⟨rfl, rfl, -⟩ := End.of_eq_some h
    rfl
  | _ => cases h

/-- A source serves one target. -/
theorem subperm_fst_pair (fits : Text.Bytes → Text.Bytes → Bool) (sources targets : List End) :
    ((pair fits true sources targets).map (·.1)).Subperm sources := by
  induction targets generalizing sources with
  | nil => exact List.nil_subperm
  | cons t targets ih =>
    unfold pair
    split
    · exact ih sources
    · next s hs =>
      have hmem : s ∈ sources := List.mem_of_find?_eq_some hs
      rw [List.map_cons]
      exact ((List.subperm_cons s).2 (ih (sources.erase s))).trans (List.perm_cons_erase hmem).symm.subperm

/-- A target has one source. -/
theorem sublist_snd_pair (fits : Text.Bytes → Text.Bytes → Bool) (once : Bool) (sources targets : List End) :
    ((pair fits once sources targets).map (·.2)).Sublist targets := by
  induction targets generalizing sources with
  | nil => exact .slnil
  | cons t targets ih =>
    unfold pair
    split
    · exact (ih sources).cons t
    · rw [List.map_cons]
      exact (ih _).cons_cons t

/-- What is taken first, with what is taken of the rest. -/
theorem subperm_append_of_rest {taken rest ends : List End} (htaken : taken.Subperm ends)
    (hrest : rest.Subperm (ends.filter fun e => !taken.contains e)) : (taken ++ rest).Subperm ends := by
  have hself : taken.filter (taken.contains ·) = taken := by simp
  have hfirst : taken.Subperm (ends.filter (taken.contains ·)) := by
    have := htaken.filter (taken.contains ·)
    rwa [hself] at this
  exact (hfirst.append hrest).trans (List.filter_append_perm _ ends).subperm

theorem subperm_fst_pairAll (sources targets : List End) :
    ((pairAll true sources targets).map (·.1)).Subperm sources := by
  rw [pairAll, List.map_append]
  exact subperm_append_of_rest (subperm_fst_pair _ _ _) (subperm_fst_pair _ _ _)

theorem subperm_snd_pairAll (once : Bool) (sources targets : List End) :
    ((pairAll once sources targets).map (·.2)).Subperm targets := by
  rw [pairAll, List.map_append]
  exact subperm_append_of_rest (sublist_snd_pair _ _ _ _).subperm (sublist_snd_pair _ _ _ _).subperm

/-! ## Renames -/

/-- The renames between two snapshots. -/
def renames (old new : Snapshot) : List Pairing :=
  pairAll true (deletions (plain old new)) (additions (plain old new))

/-- The deletions and additions of which renames are made are among the plain differences, each once. -/
theorem subperm_sources (old new : Snapshot) :
    ((renames old new).map (·.1.deletion)).Subperm (plain old new) := by
  have h := subperm_map End.deletion (subperm_fst_pairAll (deletions (plain old new)) (additions (plain old new)))
  rw [List.map_map] at h
  exact h.trans (subperm_map_deletions _)

theorem subperm_targets (old new : Snapshot) :
    ((renames old new).map (·.2.addition)).Subperm (plain old new) := by
  have h := subperm_map End.addition
    (subperm_snd_pairAll true (deletions (plain old new)) (additions (plain old new)))
  rw [List.map_map] at h
  exact h.trans (subperm_map_additions _)

/-- The plain differences that became parts of renames. -/
theorem perm_filter_isPaired (old new : Snapshot) :
    (((plain old new).filter fun c => !isModification c).filter (isPaired (renames old new))).Perm
      ((renames old new).map (·.1.deletion) ++ (renames old new).map (·.2.addition)) := by
  have hsources := subperm_sources old new
  have htargets := subperm_targets old new
  have hnodup := nodup_plain old new
  apply (List.perm_ext_iff_of_nodup ?_ ?_).2
  · intro c
    simp only [List.mem_filter, List.mem_append, List.mem_map]
    constructor
    · rintro ⟨⟨hc, hmod⟩, hpaired⟩
      -- a path has one addition and one deletion at most, so what shares its path with an end is that end
      cases c with
      | addition p n =>
        obtain ⟨r, hr, hp⟩ := List.any_eq_true.1 hpaired
        obtain rfl : r.2.path = p := by simpa using hp
        have htarget : r.2.addition ∈ plain old new := htargets.subset (List.mem_map.2 ⟨r, hr, rfl⟩)
        have hnode : r.2.node = n :=
          Option.some.inj ((nodeAt_of_addition htarget).symm.trans (nodeAt_of_addition hc))
        exact Or.inr ⟨r, hr, by rw [End.addition, hnode]⟩
      | deletion p n =>
        obtain ⟨r, hr, hp⟩ := List.any_eq_true.1 hpaired
        obtain rfl : r.1.path = p := by simpa using hp
        have hsource : r.1.deletion ∈ plain old new := hsources.subset (List.mem_map.2 ⟨r, hr, rfl⟩)
        have hnode : r.1.node = n :=
          Option.some.inj ((nodeAt_of_deletion hsource).symm.trans (nodeAt_of_deletion hc))
        exact Or.inl ⟨r, hr, by rw [End.deletion, hnode]⟩
      | modification p a b => cases hmod
      | derivation s a p b copy => cases hpaired
    · rintro (⟨r, hr, rfl⟩ | ⟨r, hr, rfl⟩)
      · exact ⟨⟨hsources.subset (List.mem_map.2 ⟨r, hr, rfl⟩), rfl⟩, List.any_eq_true.2 ⟨r, hr, beq_self_eq_true _⟩⟩
      · exact ⟨⟨htargets.subset (List.mem_map.2 ⟨r, hr, rfl⟩), rfl⟩, List.any_eq_true.2 ⟨r, hr, beq_self_eq_true _⟩⟩
  · exact (hnodup.filter _).filter _
  · refine List.nodup_append.2 ⟨nodup_of_subperm hsources hnodup, nodup_of_subperm htargets hnodup, ?_⟩
    intro c hc c' hc' heq
    obtain ⟨r, -, rfl⟩ := List.mem_map.1 hc
    obtain ⟨r', -, rfl⟩ := List.mem_map.1 hc'
    cases heq

/-- A rename is a deletion and an addition. -/
theorem perm_flatMap_edits_renames (rs : List Pairing) :
    ((rs.map (derivationOf false)).flatMap edits).Perm
      ((rs.map (·.1.deletion) ++ rs.map (·.2.addition)).flatMap edits) := by
  rw [List.flatMap_append, List.flatMap_map, List.flatMap_map, List.flatMap_map]
  exact (List.flatMap_append_perm rs (fun r => edits r.1.deletion) (fun r => edits r.2.addition)).symm

theorem changes_renames (old new : Snapshot) :
    changes .renames old new = (plain old new).filter isModification ++ (renames old new).map (derivationOf false) ++
      sortByPath (((plain old new).filter fun c => !isModification c).filter fun c => !isPaired (renames old new) c) := by
  simp [changes, List.partition_eq_filter_filter, renames, Function.comp_def]

/-- Looking for renames regroups the edits of the plain comparison. -/
theorem perm_flatMap_edits_changes (old new : Snapshot) :
    ((changes .renames old new).flatMap edits).Perm ((plain old new).flatMap edits) := by
  let others := (plain old new).filter fun c => !isModification c
  let unpaired := others.filter fun c => !isPaired (renames old new) c
  have hsorted : ((sortByPath unpaired).flatMap edits).Perm (unpaired.flatMap edits) :=
    (List.mergeSort_perm _ _).flatMap_right edits
  have hparts := ((perm_flatMap_edits_renames (renames old new)).append_left
    (((plain old new).filter isModification).flatMap edits)).append hsorted
  simp only [← List.flatMap_append] at hparts
  have hothers := ((perm_filter_isPaired old new).symm.append_right unpaired).trans (List.filter_append_perm _ others)
  have hall := (hothers.append_left ((plain old new).filter isModification)).trans (List.filter_append_perm _ _)
  rw [← List.append_assoc] at hall
  rw [changes_renames]
  exact hparts.trans (hall.flatMap_right edits)

/-- **A comparison is an edit script** from the old snapshot to the new one, unless it looks for copies. -/
theorem isScript_changes {tracking : Tracking} (htracking : tracking ≠ .copies) (hold : old.Ordered)
    (hnew : new.Ordered) : IsScript (changes tracking old new) old new := by
  have hplain := covers_plain hold hnew
  cases tracking with
  | off => exact hplain.run hold hnew
  | renames => exact (hplain.perm (perm_flatMap_edits_changes old new)).run hold hnew
  | copies => exact absurd rfl htracking

-- the old content of `a` is in `b` now, and that `a` was modified is not listed
example : changes .copies ⟨[(.ofString "a", .file false [1])]⟩
    ⟨[(.ofString "a", .file false [2]), (.ofString "b", .file false [1])]⟩ =
    [.derivation (.ofString "a") (.entry (.file false [1])) (.ofString "b") (.entry (.file false [1])) true] := by
  cbv

/-! ## Pairs of files -/

theorem isSome_fileBlob_of_mem_additions {changes : List TreeChange} {e : End} (h : e ∈ additions changes) :
    e.node.fileBlob.isSome = true := by
  obtain ⟨c, -, hc⟩ := List.mem_filterMap.1 (List.mem_mergeSort.1 h)
  cases c with
  | addition p n => exact (End.of_eq_some hc).2.2
  | _ => cases hc

theorem isSome_fileBlob_of_mem_deletions {changes : List TreeChange} {e : End} (h : e ∈ deletions changes) :
    e.node.fileBlob.isSome = true := by
  obtain ⟨c, -, hc⟩ := List.mem_filterMap.1 (List.mem_mergeSort.1 h)
  cases c with
  | deletion p n => exact (End.of_eq_some hc).2.2
  | _ => cases hc

theorem uniform_of_mem_plain (hsteady : Snapshot.Steady old new) {c : TreeChange} (h : c ∈ plain old new) :
    c.Uniform := by
  rcases mem_plain h with ⟨a, -, hc⟩ | ⟨b, -, hc⟩ | ⟨a, b, ha, hb, hc⟩
  · rw [hc]
    trivial
  · rw [hc]
    trivial
  · rw [hc]
    apply hsteady c.path
    · rw [← bind_entry?_nodeAt, ha]
      rfl
    · rw [← bind_entry?_nodeAt, hb]
      rfl

/-- Both ends of a rename are files. -/
theorem uniform_of_mem_renames {r : Pairing} (h : r ∈ renames old new) : (derivationOf false r).Uniform := by
  have hsource := (subperm_fst_pairAll _ _).subset (List.mem_map.2 ⟨r, h, rfl⟩)
  have htarget := (subperm_snd_pairAll _ _ _).subset (List.mem_map.2 ⟨r, h, rfl⟩)
  exact (isSome_fileBlob_of_mem_deletions hsource).trans (isSome_fileBlob_of_mem_additions htarget).symm

/-- Where no path switches between a file and something else, no change pairs a file with something else. -/
theorem uniform_of_mem_changes {tracking : Tracking} (htracking : tracking ≠ .copies)
    (hsteady : Snapshot.Steady old new) {c : TreeChange} (h : c ∈ changes tracking old new) : c.Uniform := by
  cases tracking with
  | off => exact uniform_of_mem_plain hsteady h
  | renames =>
    simp only [changes_renames, List.mem_append, List.mem_map, sortByPath, List.mem_mergeSort, List.mem_filter] at h
    rcases h with (⟨hc, -⟩ | ⟨r, hr, rfl⟩) | ⟨⟨hc, -⟩, -⟩
    · exact uniform_of_mem_plain hsteady hc
    · exact uniform_of_mem_renames hr
    · exact uniform_of_mem_plain hsteady hc
  | copies => exact absurd rfl htracking

end TreeDiff

end LintDelta
