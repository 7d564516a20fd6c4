import LintDelta.Proofs.Repository.Comparison
import LintDelta.Repository

/-!
# Replaying changes

The files of a snapshot are its regular and executable files, as a map from their paths to their blobs. A change of
files can be replayed on such a map: an added file is put where there was none, a deleted one is removed, and of a
modified one the version before is removed and the version after put. The changes that a comparison is told as lead
from the files of the one snapshot to those of the other, provided that the comparison is an edit script of which no
change pairs a file with something else.

Main statement: the changes between two commits, replayed on the files of the first, give the files of the second.
-/

namespace LintDelta

/-- The regular and executable files, as their blobs. -/
def Snapshot.files (s : Snapshot) : OrderedMap Path BlobId :=
  s.filterMap Entry.fileBlob

theorem Node.bind_fileBlob_entry? (n : Node) : n.entry?.bind Entry.fileBlob = n.fileBlob := by
  cases n <;> rfl

namespace Change

/-- What a change does to files: an added file is put where there is none, a deleted one is removed, and of a modified
one the version before is removed and the version after put. Nothing is removed but the blob of the change. -/
def edits : Change → List (Edit BlobId)
  | added path blob => [⟨path, none, some blob⟩]
  | deleted path blob => [⟨path, some blob, none⟩]
  | modified prePath preBlob postPath postBlob _ =>
    [⟨prePath, some preBlob, none⟩, ⟨postPath, none, some postBlob⟩]

/-- Replays changes one after another; fails at a change that does not fit. -/
def replay (changes : List Change) (files : OrderedMap Path BlobId) : Option (OrderedMap Path BlobId) :=
  Edit.run (changes.flatMap edits) files

end Change

namespace TreeChange

variable {c : TreeChange} {script : List TreeChange} {old new : Snapshot}

/-- The file before a change, as far as the change takes it away. -/
def pre : TreeChange → Option Version
  | addition .. => none
  | deletion path node => node.fileBlob.map (Version.mk path)
  | modification path before _ => before.fileBlob.map (Version.mk path)
  | derivation source before _ _ copy => if copy then none else before.fileBlob.map (Version.mk source)

/-- The file after a change. -/
def post : TreeChange → Option Version
  | addition path node => node.fileBlob.map (Version.mk path)
  | deletion .. => none
  | modification path _ after => after.fileBlob.map (Version.mk path)
  | derivation _ _ path after _ => after.fileBlob.map (Version.mk path)

/-- Whether a change is about a file. -/
def concernsFile (c : TreeChange) : Bool := c.pre.isSome || c.post.isSome

/-- Whether something moved. -/
def isRename : TreeChange → Bool
  | derivation _ _ _ _ copy => !copy
  | _ => false

/-- A change of files tells of a change of trees: the same file before and after it, and renamed if it moved. -/
structure ToldBy (c : TreeChange) (change : Change) : Prop where
  pre : change.pre = c.pre
  post : change.post = c.post
  renamed : change.isRenamed = c.isRename

/-! ## One change -/

/-- Of two nodes that are both files or both not. -/
theorem fileBlob_cases {a b : Node} (h : a.fileBlob.isSome = b.fileBlob.isSome) :
    a.fileBlob = none ∧ b.fileBlob = none ∨ ∃ x y, a.fileBlob = some x ∧ b.fileBlob = some y := by
  cases ha : a.fileBlob <;> cases hb : b.fileBlob <;> simp_all

/-- **A change of trees is told** exactly if it is about a file. -/
theorem record_of_uniform (h : c.Uniform) :
    c.concernsFile = false ∧ c.record = none ∨
      c.concernsFile = true ∧ ∃ change, c.record = some change ∧ c.ToldBy change := by
  cases c with
  | addition p n =>
    cases hn : n.fileBlob with
    | none => exact Or.inl (by simp [concernsFile, pre, post, record, hn])
    | some blob =>
      refine Or.inr ⟨by simp [concernsFile, post, hn], .added p blob, by simp [record, hn], ?_⟩
      constructor <;> simp [Change.pre, Change.post, Change.isRenamed, pre, post, isRename, hn]
  | deletion p n =>
    cases hn : n.fileBlob with
    | none => exact Or.inl (by simp [concernsFile, pre, post, record, hn])
    | some blob =>
      refine Or.inr ⟨by simp [concernsFile, pre, hn], .deleted p blob, by simp [record, hn], ?_⟩
      constructor <;> simp [Change.pre, Change.post, Change.isRenamed, pre, post, isRename, hn]
  | modification p a b =>
    rcases fileBlob_cases h with ⟨ha, hb⟩ | ⟨x, y, ha, hb⟩
    · exact Or.inl (by simp [concernsFile, pre, post, record, ha, hb])
    · refine Or.inr ⟨by simp [concernsFile, pre, ha], .modified p x p y false, by simp [record, ha, hb], ?_⟩
      constructor <;> simp [Change.pre, Change.post, Change.isRenamed, pre, post, isRename, ha, hb]
  | derivation s a p b copy =>
    rcases fileBlob_cases h with ⟨ha, hb⟩ | ⟨x, y, ha, hb⟩
    · exact Or.inl (by simp [concernsFile, pre, post, record, ha, hb])
    · refine Or.inr ⟨by simp [concernsFile, post, hb], ?_⟩
      cases copy with
      | false =>
        refine ⟨.modified s x p y true, record_rename ha hb, ?_⟩
        constructor <;> simp [Change.pre, Change.post, Change.isRenamed, pre, post, isRename, ha, hb]
      | true =>
        refine ⟨.added p y, record_copy ha hb, ?_⟩
        constructor <;> simp [Change.pre, Change.post, Change.isRenamed, pre, post, isRename, hb]

/-- What a change does to files, as a part of what it does to entries. -/
theorem replay_record (h : c.Uniform) {files files' : OrderedMap Path BlobId} (hfiles : files.Ordered)
    (hpart : Edit.run (c.edits.flatMap (Edit.part Entry.fileBlob)) files = some files') :
    Change.replay c.record.toList files = some files' := by
  unfold Change.replay
  cases c with
  | addition p n =>
    rw [edits, Edit.flatMap_part_between, Node.bind_fileBlob_entry?] at hpart
    cases hn : n.fileBlob with
    | none => simpa [record, hn, Edit.between] using hpart
    | some blob => simpa [record, hn, Edit.between, Change.edits] using hpart
  | deletion p n =>
    rw [edits, Edit.flatMap_part_between, Node.bind_fileBlob_entry?] at hpart
    cases hn : n.fileBlob with
    | none => simpa [record, hn, Edit.between] using hpart
    | some blob => simpa [record, hn, Edit.between, Change.edits] using hpart
  | modification p a b =>
    rw [edits, Edit.flatMap_part_between, Node.bind_fileBlob_entry?, Node.bind_fileBlob_entry?] at hpart
    rcases fileBlob_cases h with ⟨ha, hb⟩ | ⟨x, y, ha, hb⟩
    · simpa [record, ha, hb, Edit.between] using hpart
    · rw [ha, hb] at hpart
      simpa [record, ha, hb, Change.edits] using Edit.run_replace hfiles hpart
  | derivation s a p b copy =>
    rw [edits, List.flatMap_append, Edit.flatMap_part_between _ p, Node.bind_fileBlob_entry?] at hpart
    cases copy with
    | false =>
      rw [if_neg Bool.false_ne_true, Edit.flatMap_part_between, Node.bind_fileBlob_entry?] at hpart
      rcases fileBlob_cases h with ⟨ha, hb⟩ | ⟨x, y, ha, hb⟩
      · simpa [record, ha, hb, Edit.between] using hpart
      · simpa [record, ha, hb, Edit.between, Change.edits] using hpart
    | true =>
      rcases fileBlob_cases h with ⟨ha, hb⟩ | ⟨x, y, ha, hb⟩
      · simpa [record, ha, hb, Edit.between] using hpart
      · simpa [record, ha, hb, Edit.between, Change.edits] using hpart

/-! ## A script -/

/-- **Replaying what a script is told as** gives the files of the new snapshot out of those of the old one. -/
theorem replay_filterMap_record (hold : old.Ordered) (hscript : IsScript script old new)
    (huniform : ∀ c ∈ script, c.Uniform) :
    Change.replay (script.filterMap record) old.files = some new.files := by
  induction script generalizing old with
  | nil =>
    cases hscript
    rfl
  | cons c script ih =>
    obtain ⟨middle, hfirst, hrest⟩ := Edit.run_append_eq_some_iff.1 hscript
    have hchange := replay_record (huniform c List.mem_cons_self) (OrderedMap.ordered_filterMap hold _)
      (Edit.run_flatMap_part hold Entry.fileBlob hfirst)
    have hscript' := ih (Edit.ordered_of_run hold hfirst) hrest fun c' hc' => huniform c' (List.mem_cons_of_mem _ hc')
    have hsplit : (c :: script).filterMap record = c.record.toList ++ script.filterMap record := by
      rw [List.filterMap_cons]
      cases c.record <;> rfl
    rw [hsplit, Change.replay, List.flatMap_append]
    exact Edit.run_append_eq_some_iff.2 ⟨_, hchange, hscript'⟩

/-- **The changes that are about files are told**, each once and in order. -/
theorem forall₂_toldBy (huniform : ∀ c ∈ script, c.Uniform) :
    List.Forall₂ ToldBy (script.filter concernsFile) (script.filterMap record) := by
  induction script with
  | nil => exact .nil
  | cons c script ih =>
    have hrest := ih fun c' hc' => huniform c' (List.mem_cons_of_mem _ hc')
    rcases record_of_uniform (huniform c List.mem_cons_self) with ⟨hno, hnone⟩ | ⟨hyes, change, hsome, htold⟩
    · rw [List.filter_cons_of_neg (by simp [hno]), List.filterMap_cons_none hnone]
      exact hrest
    · rw [List.filter_cons_of_pos hyes, List.filterMap_cons_some hsome]
      exact .cons htold hrest

end TreeChange

namespace Repository

open TreeChange (IsScript ToldBy)

/-- **Changes are a faithful edit script.** The changes between two commits are what the comparison of their snapshots
is told as. Unless it looks for copies, that comparison is an edit script, and it pairs no file with something else
where no path switches between the two. Whatever edit script leads from the one snapshot to the other, if none of its
changes pairs a file with something else, then replaying what it is told as succeeds on the files of the first commit
and gives those of the second; and each of its changes that is about a file is told once, in order and with its own
sides, as renamed exactly if something moved. -/
theorem replay_changes {r : Repository} {source target : CommitId} {a b : Commit} (ha : r.commitAt source = .ok a)
    (hb : r.commitAt target = .ok b) (hold : a.snapshot.Ordered) (hnew : b.snapshot.Ordered) :
    r.changes source target =
      .ok ((TreeDiff.changes r.tracking a.snapshot b.snapshot).filterMap TreeChange.record) ∧
    (r.tracking ≠ .copies →
      IsScript (TreeDiff.changes r.tracking a.snapshot b.snapshot) a.snapshot b.snapshot ∧
      (Snapshot.Steady a.snapshot b.snapshot →
        ∀ c ∈ TreeDiff.changes r.tracking a.snapshot b.snapshot, c.Uniform)) ∧
    ∀ script, IsScript script a.snapshot b.snapshot → (∀ c ∈ script, c.Uniform) →
      Change.replay (script.filterMap TreeChange.record) a.snapshot.files = some b.snapshot.files ∧
      List.Forall₂ ToldBy (script.filter TreeChange.concernsFile) (script.filterMap TreeChange.record) := by
  refine ⟨?_, ?_, ?_⟩
  · rw [changes, ha, hb]
    rfl
  · intro htracking
    exact ⟨TreeDiff.isScript_changes htracking hold hnew,
      fun hsteady c hc => TreeDiff.uniform_of_mem_changes htracking hsteady hc⟩
  · intro script hscript huniform
    exact ⟨TreeChange.replay_filterMap_record hold hscript huniform, TreeChange.forall₂_toldBy huniform⟩

/-- A commit with a file, a link, and a file that the next commit moves. -/
def beforeMove : Commit where
  id := ⟨"1111111111111111111111111111111111111111"⟩
  parents := []
  snapshot := .ofList [(.ofString "edited.c", .file false [1]), (.ofString "link", .link [2]),
    (.ofString "old.c", .file false [3])]

/-- The file is edited and made executable, the link leads elsewhere, the other file is in a directory of its own,
and there is a submodule. -/
def afterMove : Commit where
  id := ⟨"2222222222222222222222222222222222222222"⟩
  parents := [beforeMove.id]
  snapshot := .ofList [(.ofString "edited.c", .file true [4]), (.ofString "link", .link [5]),
    (.ofString "new/moved.c", .file false [3]), (.ofString "sub", .submodule ⟨"c0ffee"⟩)]

/-- A repository with these two commits that looks for renames. -/
def moving : Repository where
  commits := [beforeMove, afterMove]
  refs := ∅
  head := .direct afterMove.id
  index := ∅
  worktree := ∅
  tracking := .renames

/-- How the one snapshot becomes the other. -/
def movingScript : List TreeChange :=
  [.modification (.ofString "edited.c") (.entry (.file false [1])) (.entry (.file true [4])),
    .modification (.ofString "link") (.entry (.link [2])) (.entry (.link [5])),
    .derivation (.ofString "old.c") (.entry (.file false [3])) (.ofString "new/moved.c") (.entry (.file false [3])) false,
    .addition (.ofString "new") .directory,
    .addition (.ofString "sub") (.entry (.submodule ⟨"c0ffee"⟩))]

/-- What that is for files. -/
def moves : List Change :=
  [.modified (.ofString "edited.c") (.ofContent [1]) (.ofString "edited.c") (.ofContent [4]) false,
    .modified (.ofString "old.c") (.ofContent [3]) (.ofString "new/moved.c") (.ofContent [3]) true]

/-- The link, the directory and the submodule are left out, and the files of the second commit come out. -/
theorem replay_changes_of_moving :
    moving.changes beforeMove.id afterMove.id = .ok moves ∧
      Change.replay moves beforeMove.snapshot.files = some afterMove.snapshot.files := by
  have hold : beforeMove.snapshot.Ordered := OrderedMap.ordered_ofList _
  have hnew : afterMove.snapshot.Ordered := OrderedMap.ordered_ofList _
  have hbefore : moving.commitAt beforeMove.id = .ok beforeMove := by decide +kernel
  have hafter : moving.commitAt afterMove.id = .ok afterMove := by decide +kernel
  have hreport : TreeDiff.changes moving.tracking beforeMove.snapshot afterMove.snapshot = movingScript := by
    cbv
  have hmoves : movingScript.filterMap TreeChange.record = moves := rfl
  obtain ⟨hchanges, hscript, hreplay⟩ := replay_changes hbefore hafter hold hnew
  rw [hreport] at hchanges hscript
  rw [hmoves] at hchanges
  have htracking : moving.tracking ≠ .copies := by decide
  have huniform : ∀ c ∈ movingScript, c.Uniform := by decide +kernel
  obtain ⟨hdone, -⟩ := hreplay movingScript (hscript htracking).1 huniform
  rw [hmoves] at hdone
  exact ⟨hchanges, hdone⟩

end Repository

end LintDelta
