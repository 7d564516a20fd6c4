import LintDelta.Proofs.Contrast.Accounting
import LintDelta.Proofs.Json.Shapes
import LintDelta.Proofs.Report.Rendering
import LintDelta.Proofs.Report.Results
import LintDelta.Proofs.Text.Utf8
import LintDelta.Records

/-!
# Stored reports

A report is stored as an object in which the numbers of files stand beside the results and the failures. So the names
under which files are counted must not be the names of those two; then sorting moves the members and loses none
(`perm_sortMembers`). Each part is read back from the value that was written for it, and since a text is read as
the value that it spells, the report is read back from its text.

Main statement: a report whose paths are text is written, read back as it was, and written with the members of every
object in the order of their names. Reports of contrasts are such reports (`writeText_lossless`).
-/

namespace LintDelta

open Json (Fields Shape Storable)

/-! ## Values in order -/

namespace Json

/-- In every object the names of the members rise strictly, byte by byte. -/
inductive KeysRise : Json → Prop
  | null : KeysRise .null
  | bool (b : Bool) : KeysRise (.bool b)
  | integer (n : Int) : KeysRise (.integer n)
  | float (x : Binary64) : KeysRise (.float x)
  | text (s : String) : KeysRise (.text s)
  | list {xs : List Json} (h : ∀ x ∈ xs, KeysRise x) : KeysRise (.list xs)
  | object {ms : List (String × Json)} (hrise : ms.Pairwise fun a b => Text.encode a.1 < Text.encode b.1)
    (h : ∀ m ∈ ms, KeysRise m.2) : KeysRise (.object ms)

/-- A value as a report holds it: it can be stored, and its names rise. -/
structure Orderly (depth : Nat) (x : Json) : Prop where
  storable : Storable depth x
  keysRise : KeysRise x

namespace Orderly

variable {depth : Nat}

theorem text (s : String) : Orderly depth (.text s) := ⟨.text s, .text s⟩

theorem signed {n : Int} (h : Machine.fits n = true) : Orderly depth (.integer n) := by
  simp only [Machine.fits, Bool.and_eq_true, decide_eq_true_eq] at h
  exact ⟨.integer h.1 (by omega), .integer n⟩

theorem unsigned {n : Nat} (h : n < 18446744073709551616) : Orderly depth (.integer n) :=
  ⟨.integer (by omega) (by omega), .integer n⟩

theorem list {xs : List Json} (h : ∀ x ∈ xs, Orderly depth x) : Orderly (depth + 1) (.list xs) :=
  ⟨.list fun x hx => (h x hx).storable, .list fun x hx => (h x hx).keysRise⟩

/-- Names that are sorted as texts rise byte by byte. -/
theorem object {ms : List (String × Json)} (hnames : (ms.map (·.1)).Pairwise (compare · · = .lt))
    (h : ∀ m ∈ ms, Orderly depth m.2) : Orderly (depth + 1) (.object ms) where
  storable := .object fun m hm => (h m hm).storable
  keysRise := .object ((List.pairwise_map.1 hnames).imp fun hlt =>
    Text.encode_lt_encode (compareOfLessAndEq_eq_lt.1 hlt)) fun m hm => (h m hm).keysRise

/-- A map is in order as an object if its values are. -/
theorem map {α : Type} {m : OrderedMap String α} (hm : m.Ordered) {put : α → Json}
    (h : ∀ b ∈ m.bindings, Orderly depth (put b.2)) :
    Orderly (depth + 1) (.object (m.bindings.map fun (name, x) => (name, put x))) := by
  refine .object ?_ fun b hb => ?_
  · rw [List.map_map]
    exact List.pairwise_map.2 hm
  · obtain ⟨c, hc, rfl⟩ := List.mem_map.1 hb
    exact h c hc

end Orderly

/-- A value from which a codec takes `a`. -/
def Codec.Holds {α : Type} (codec : Codec α) (x : Json) (a : α) : Prop :=
  ∃ v, codec.shape.ofJson? x = some v ∧ codec.ofVal v = a

/-- Members under their names are got back if their values are. -/
theorem exists_ofJson?_dict {α : Type} {item : Shape} {put : α → Json} {get : item.Val → α}
    {bindings : List (String × α)}
    (h : ∀ b ∈ bindings, ∃ v, item.ofJson? (put b.2) = some v ∧ get v = b.2) :
    ∃ vs : List (String × item.Val),
      (Shape.dict item).ofJson? (.object (bindings.map fun (name, x) => (name, put x))) = some vs ∧
      (vs.map fun (name, v) => (name, get v)) = bindings := by
  have hall : ∀ b ∈ bindings, ∃ m, some (b.1, put b.2) = some m ∧ True ∧
      ∃ z, ((item.ofJson? m.2).map fun v => (m.1, v)) = some z ∧ (z.1, get z.2) = b := by
    intro b hb
    obtain ⟨v, hv, hget⟩ := h b hb
    exact ⟨_, rfl, trivial, (b.1, v), by rw [hv]; rfl, by rw [hget]⟩
  obtain ⟨ms, hput, -, vs, htake, hget⟩ := exists_mapM_mapM hall
  obtain rfl : bindings.map (fun b => (b.1, put b.2)) = ms := Option.some.inj ((List.mapM_pure ..).symm.trans hput)
  exact ⟨vs, htake, hget⟩

end Json

theorem Json.Codec.exists_toVal_labelled {α : Type} [DecidableEq α] {all : List α} {label : α → String}
    {default x : α} (h : x ∈ all) : ∃ v, (labelled all label default).toVal x = some v := by
  have hmem : label x ∈ all.map label := List.mem_map_of_mem h
  exact Option.ne_none_iff_exists'.1 fun hnone => List.finIdxOf?_eq_none_iff.1 hnone hmem

theorem Category.holds_label (c : Category) : codec.Holds (.text c.label) c := by
  obtain ⟨v, hv⟩ : ∃ v, codec.toVal c = some v := Json.Codec.exists_toVal_labelled (mem_all c)
  exact ⟨v, hv, Json.Codec.ofVal_labelled (fun _ _ => label_injective) hv⟩

namespace StructuredReport

/-! ## Parts -/

theorem orderly_entryJson {e : IssueEntry} (hpre : Machine.fits e.pre = true) (hpost : Machine.fits e.post = true) :
    Json.Orderly 1 (entryJson e) := by
  have hnames : ["category", "post", "pre"].Pairwise (compare · · = .lt) := by decide
  refine .object hnames ?_
  simp only [List.forall_mem_cons]
  exact ⟨.text _, .signed hpost, .signed hpre, nofun⟩

theorem holds_entryJson {e : IssueEntry} (hpre : Machine.fits e.pre = true) (hpost : Machine.fits e.post = true) :
    IssueEntry.codec.Holds (entryJson e) e := by
  obtain ⟨c, hc, hcategory⟩ := e.category.holds_label
  have hpre : Shape.signed.ofJson? (.integer e.pre) = some e.pre := Machine.check_eq_some_iff.2 ⟨hpre, rfl⟩
  have hpost : Shape.signed.ofJson? (.integer e.post) = some e.post := Machine.check_eq_some_iff.2 ⟨hpost, rfl⟩
  refine ⟨(e.pre, e.post, c, ()), ?_, congrArg (IssueEntry.mk e.pre e.post) hcategory⟩
  exact Fields.collect_required [("category", _), ("post", _)] (by simp) hpre
    (Fields.collect_required [("category", _)] (by simp) hpost (Fields.collect_required [] (by simp) hc rfl))

/-- A failure whose path is text is written, in order, and got back. -/
theorem holds_failureJson {f : FileFailure} {name : String} (h : f.path.text? = some name) :
    ∃ x, failureJson f = some x ∧ Json.Orderly 2 x ∧ FileFailure.codec.Holds x f := by
  refine ⟨_, by rw [failureJson, h]; rfl, ?_, (name, f.linter, f.error, ()), rfl, ?_⟩
  · have hnames : ["error", "linter", "path"].Pairwise (compare · · = .lt) := by decide
    refine .object hnames ?_
    simp only [List.forall_mem_cons]
    exact ⟨.text _, .text _, .text _, nofun⟩
  · have hpath : Path.ofString name = f.path := congrArg Path.mk (Text.encode_of_decode? h)
    exact congrArg (FileFailure.mk · f.linter f.error) hpath

/-- The entries of one linter. -/
def entriesJson (entries : OrderedMap String IssueEntry) : Json :=
  .object (entries.bindings.map fun (key, e) => (key, entryJson e))

/-- All entries. -/
def resultsJson (results : Results) : Json :=
  .object (results.bindings.map fun (linter, entries) => (linter, entriesJson entries))

/-- The entries that were read for one linter. -/
def entriesOf (entries : List (String × IssueEntry.codec.shape.Val)) : OrderedMap String IssueEntry :=
  OrderedMap.ofList (entries.map fun (key, e) => (key, IssueEntry.codec.ofVal e))

/-- Entries as they are stored: in the order of their keys, with counts of 64 bits. -/
structure EntriesFit (entries : OrderedMap String IssueEntry) : Prop where
  ordered : entries.Ordered
  fits : ∀ b ∈ entries.bindings, Machine.fits b.2.pre = true ∧ Machine.fits b.2.post = true

theorem orderly_entriesJson {entries : OrderedMap String IssueEntry} (h : EntriesFit entries) :
    Json.Orderly 2 (entriesJson entries) :=
  .map h.ordered fun b hb => orderly_entryJson (h.fits b hb).1 (h.fits b hb).2

theorem holds_entriesJson {entries : OrderedMap String IssueEntry} (h : EntriesFit entries) :
    ∃ v, (Shape.dict IssueEntry.codec.shape).ofJson? (entriesJson entries) = some v ∧ entriesOf v = entries := by
  obtain ⟨v, hv, hentries⟩ := Json.exists_ofJson?_dict fun b hb => holds_entryJson (h.fits b hb).1 (h.fits b hb).2
  refine ⟨v, hv, ?_⟩
  rw [entriesOf, hentries]
  exact OrderedMap.ofList_bindings h.ordered

/-- A report as its types have it: maps in the order of their keys, and numbers of 64 bits. -/
structure WellFormed (r : StructuredReport) : Prop where
  ordered : r.results.Ordered
  entries : ∀ b ∈ r.results.bindings, EntriesFit b.2
  fileCounts : r.fileCounts.Stored

theorem WellFormed.orderly_resultsJson {r : StructuredReport} (h : r.WellFormed) :
    Json.Orderly 3 (resultsJson r.results) :=
  .map h.ordered fun b hb => orderly_entriesJson (h.entries b hb)

theorem WellFormed.holds_resultsJson {r : StructuredReport} (h : r.WellFormed) :
    ∃ vs : List (String × List (String × IssueEntry.codec.shape.Val)),
      (Shape.dict (.dict IssueEntry.codec.shape)).ofJson? (resultsJson r.results) = some vs ∧
      (vs.map fun (linter, entries) => (linter, entriesOf entries)) = r.results.bindings :=
  Json.exists_ofJson?_dict fun b hb => holds_entriesJson (h.entries b hb)

/-- The numbers of files as members. -/
def countsJson (counts : FileCounts) : List (String × Json) :=
  counts.bindings.map fun (name, n) => (name, Json.integer n)

theorem mapM_fileCountOf (bindings : List (String × Nat)) :
    (bindings.map fun (name, n) => (name, Json.integer n)).mapM
      (fun (name, x) => do return (name, ← fileCountOf x)) = .ok bindings := by
  induction bindings with
  | nil => rfl
  | cons b rest ih =>
    have hone : fileCountOf (.integer b.2) = .ok b.2 := by
      rw [fileCountOf, if_pos (Int.natCast_nonneg b.2), Int.toNat_natCast]
    rw [List.map_cons, List.mapM_cons, ih]
    dsimp only
    rw [hone]
    rfl

/-- The failures, unless there are none. -/
def failuresMember (failures : List Json) : List (String × Json) :=
  if failures.isEmpty then [] else [("failures", .list failures)]

/-- The failures are got back from their member, and from no member if there are none. -/
theorem collect_failuresMember {failures : List Json} {vs : List FileFailure.codec.shape.Val}
    (h : failures.mapM (fun x => FileFailure.codec.shape.ofJson? x) = some vs) :
    (Fields.listed "failures" FileFailure.codec.shape .nil).collect (Fields.fill _) (failuresMember failures) =
      some (vs, ()) := by
  cases failures with
  | nil =>
    cases h
    rfl
  | cons x rest =>
    show Option.bind (Option.bind (Json.fillSlot none (fun vs => (some vs, ()))
      ((x :: rest).mapM fun x => FileFailure.codec.shape.ofJson? x)) some) _ = _
    rw [h]
    rfl

/-! ## Members in order -/

/-- The fields of a stored report. -/
def fields : Fields :=
  .required "results" (.dict (.dict IssueEntry.codec.shape)) (.listed "failures" FileFailure.codec.shape .nil)

/-- The members of a report whose failures are written. -/
def membersOf (r : StructuredReport) (failures : List Json) : List (String × Json) :=
  ("results", resultsJson r.results) :: (countsJson r.fileCounts ++ failuresMember failures)

theorem writeText_eq {r : StructuredReport} {failures : List Json}
    (h : r.failures.mapM failureJson = some failures) :
    r.writeText = some (Json.object (sortMembers (r.membersOf failures))).pretty := by
  rw [writeText, members, h]
  rfl

section Sorting

variable {r : StructuredReport} (failures : List Json)

theorem names_failuresMember :
    (failuresMember failures).map (·.1) = [] ∨ (failuresMember failures).map (·.1) = ["failures"] := by
  cases failures with
  | nil => exact Or.inl rfl
  | cons x rest => exact Or.inr rfl

theorem filter_failuresMember :
    (failuresMember failures).filter (fun m => fields.keys.contains m.1) = failuresMember failures ∧
      (failuresMember failures).filter (fun m => !fields.keys.contains m.1) = [] := by
  cases failures with
  | nil => exact ⟨rfl, rfl⟩
  | cons x rest => exact ⟨rfl, rfl⟩

theorem names_countsJson (counts : FileCounts) : (countsJson counts).map (·.1) = counts.keys := by
  rw [countsJson, List.map_map]
  rfl

variable (hresults : "results" ∉ r.fileCounts.keys) (hfailures : "failures" ∉ r.fileCounts.keys)
include hresults hfailures

/-- The names under which files are counted are no fields. -/
theorem filter_countsJson :
    (countsJson r.fileCounts).filter (fun m => fields.keys.contains m.1) = [] ∧
      (countsJson r.fileCounts).filter (fun m => !fields.keys.contains m.1) = countsJson r.fileCounts := by
  have hother : ∀ m ∈ countsJson r.fileCounts, fields.keys.contains m.1 = false := by
    intro m hm
    have hname : m.1 ∈ r.fileCounts.keys := names_countsJson r.fileCounts ▸ List.mem_map_of_mem hm
    have hne : m.1 ≠ "results" := fun heq => hresults (heq ▸ hname)
    have hne' : m.1 ≠ "failures" := fun heq => hfailures (heq ▸ hname)
    simp [fields, Fields.keys, hne, hne']
  exact ⟨List.filter_eq_nil_iff.2 fun m hm => by simp only [hother m hm, Bool.false_eq_true, not_false_eq_true],
    List.filter_eq_self.2 fun m hm => by simp only [hother m hm, Bool.not_false]⟩

variable (h : r.WellFormed)
include h

/-- **Sorting loses no member**, since no two have the same name. This is where it matters that no files are counted
under the name of a field. -/
theorem perm_sortMembers : (sortMembers (r.membersOf failures)).Perm (r.membersOf failures) := by
  have hcounts : r.fileCounts.keys.Nodup := OrderedMap.nodup_keys h.fileCounts.ordered
  refine OrderedMap.perm_ofList ?_
  rw [membersOf, List.map_cons, List.map_append, names_countsJson]
  rcases names_failuresMember failures with htail | htail <;> rw [htail]
  · rw [List.append_nil]
    exact List.nodup_cons.2 ⟨hresults, hcounts⟩
  · refine List.nodup_cons.2 ⟨by simpa using hresults, ?_⟩
    exact List.nodup_append'.2 ⟨hcounts, by simp, by simpa using hfailures⟩

/-- The members that fill fields, in order. Which ones they are is known from the unsorted members, and in which order
from the sorting alone. -/
theorem filter_fields : (sortMembers (r.membersOf failures)).filter (fun m => fields.keys.contains m.1) =
    failuresMember failures ++ [("results", resultsJson r.results)] := by
  have hkept := (perm_sortMembers failures hresults hfailures h).filter fun m => fields.keys.contains m.1
  rw [membersOf, List.filter_cons_of_pos (by rfl), List.filter_append, (filter_countsJson hresults hfailures).1,
    (filter_failuresMember failures).1, List.nil_append] at hkept
  have hrise : ((failuresMember failures ++ [("results", resultsJson r.results)]).map (·.1)).Pairwise
      (compare · · = .lt) := by
    rw [List.map_append]
    show ((failuresMember failures).map (·.1) ++ ["results"]).Pairwise (compare · · = .lt)
    rcases names_failuresMember failures with htail | htail <;> rw [htail] <;> decide
  exact OrderedMap.eq_of_perm ((OrderedMap.ordered_ofList _).filter _) (List.pairwise_map.1 hrise)
    (hkept.trans (List.perm_append_singleton ..).symm)

/-- The other members. -/
theorem filter_counts : (sortMembers (r.membersOf failures)).filter (fun m => !fields.keys.contains m.1) =
    countsJson r.fileCounts := by
  have hkept := (perm_sortMembers failures hresults hfailures h).filter fun m => !fields.keys.contains m.1
  rw [membersOf, List.filter_cons_of_neg (by exact Bool.false_ne_true), List.filter_append,
    (filter_countsJson hresults hfailures).2, (filter_failuresMember failures).2, List.append_nil] at hkept
  have hcounts : (countsJson r.fileCounts).Pairwise fun a b => compare a.1 b.1 = .lt :=
    List.pairwise_map.2 h.fileCounts.ordered
  exact OrderedMap.eq_of_perm ((OrderedMap.ordered_ofList _).filter _) hcounts hkept

theorem orderly_sortMembers (hall : ∀ x ∈ failures, Json.Orderly 2 x) :
    Json.Orderly 4 (.object (sortMembers (r.membersOf failures))) := by
  refine .object (List.pairwise_map.2 (OrderedMap.ordered_ofList _)) fun m hm => ?_
  rcases List.mem_cons.1 ((perm_sortMembers failures hresults hfailures h).mem_iff.1 hm) with rfl | hm
  · exact h.orderly_resultsJson
  rcases List.mem_append.1 hm with hm | hm
  · obtain ⟨b, hb, rfl⟩ := List.mem_map.1 hm
    exact .unsigned (h.fileCounts.fits b.1 b.2 ((OrderedMap.mem_bindings_iff h.fileCounts.ordered).1 hb))
  · unfold failuresMember at hm
    split at hm
    · cases hm
    · rw [List.mem_singleton.1 hm]
      exact .list hall

/-- **What a report is read back as**, from the value that is written for it. -/
theorem ofJson?_sortMembers {entries : List (String × List (String × IssueEntry.codec.shape.Val))}
    (hentries : (Shape.dict (.dict IssueEntry.codec.shape)).ofJson? (resultsJson r.results) = some entries)
    {vs : List FileFailure.codec.shape.Val}
    (hvs : failures.mapM (fun x => FileFailure.codec.shape.ofJson? x) = some vs) :
    shape.ofJson? (.object (sortMembers (r.membersOf failures))) =
      some ((entries, vs, ()), countsJson r.fileCounts) := by
  have hname : "results" ∉ (failuresMember failures).map (·.1) := by
    rcases names_failuresMember failures with htail | htail <;> rw [htail] <;> decide
  exact Shape.ofJson?_openRecord _ (filter_fields failures hresults hfailures h)
    (filter_counts failures hresults hfailures h)
    (Fields.collect_required _ hname hentries (collect_failuresMember hvs))

end Sorting

/-! ## Whole reports -/

/-- A report has a text, the text is read back as that very report, and in the text the members of every object are
in the order of their names. -/
def ReadsBack (r : StructuredReport) : Prop :=
  ∃ text, r.writeText = some text ∧ readText text = .ok r ∧
    ∃ x, Json.readAll (Json.anyValue Json.maxDepth) text = .ok x ∧ x.KeysRise

/-- **A report whose paths are text is read back**, if no files are counted under the names of its fields. -/
theorem readsBack {r : StructuredReport} (h : r.WellFormed) (hresults : "results" ∉ r.fileCounts.keys)
    (hfailures : "failures" ∉ r.fileCounts.keys) (hpaths : ∀ f ∈ r.failures, ∃ name, f.path.text? = some name) :
    r.ReadsBack := by
  obtain ⟨xs, hxs, horderly, vs, hvs, hfailuresBack⟩ := exists_mapM_mapM fun f hf =>
    holds_failureJson (hpaths f hf).choose_spec
  obtain ⟨entries, hentries, hresultsBack⟩ := h.holds_resultsJson
  have hx := orderly_sortMembers xs hresults hfailures h horderly
  have htext := Json.spells_prettyAt hx.storable 0
  have hread : shape.readText (Json.object (sortMembers (r.membersOf xs))).pretty =
      .ok ((entries, vs, ()), countsJson r.fileCounts) :=
    Json.Reads.readAll (shape.reads_of_ofJson? (ofJson?_sortMembers xs hresults hfailures h hentries hvs)
      hx.storable (by decide)) htext
  refine ⟨_, writeText_eq hxs, ?_, _, ?_, hx.keysRise⟩
  · rw [readText, hread]
    show (do
      let counts ← (countsJson r.fileCounts).mapM fun ((name, x) : String × Json) => do
        return (name, ← fileCountOf x)
      return (⟨OrderedMap.ofList (entries.map fun (linter, entries) => (linter, entriesOf entries)),
        OrderedMap.ofList counts, vs.map FileFailure.codec.ofVal⟩ : StructuredReport)) = _
    rw [countsJson, mapM_fileCountOf, hresultsBack, hfailuresBack]
    show Except.ok (StructuredReport.mk (OrderedMap.ofList r.results.bindings)
      (OrderedMap.ofList r.fileCounts.bindings) r.failures) = _
    rw [OrderedMap.ofList_bindings h.ordered, OrderedMap.ofList_bindings h.fileCounts.ordered]
  · exact Json.Reads.readAll (Json.reads_anyValue (hx.storable.mono (by decide))) htext

/-! ## Reports of contrasts -/

theorem filled_foldl_enter {results : Results} (h : Filled results) (all ms : List Tally.Movement) :
    Filled (ms.foldl (enter all) results) := by
  induction ms generalizing results with
  | nil => exact h
  | cons m rest ih => exact ih (filled_enter h all m)

/-- Whatever is entered, an entry has the counts of some movement. -/
theorem fits_foldl_enter {ms : List Tally.Movement} {results : Results}
    (hms : ∀ m ∈ ms, Machine.fits m.pre = true ∧ Machine.fits m.post = true)
    (h : ∀ linter k e, entryAt results linter k = some e → Machine.fits e.pre = true ∧ Machine.fits e.post = true)
    (all : List Tally.Movement) {linter k : String} {e : IssueEntry}
    (he : entryAt (ms.foldl (enter all) results) linter k = some e) :
    Machine.fits e.pre = true ∧ Machine.fits e.post = true := by
  induction ms generalizing results with
  | nil => exact h linter k e he
  | cons m rest ih =>
    refine ih (fun m' hm' => hms m' (List.mem_cons_of_mem m hm')) (fun linter k e he => ?_) he
    rw [entryAt_enter] at he
    split at he
    · cases he
      exact hms m List.mem_cons_self
    · exact h linter k e he

theorem entriesFit_resultsOf (pre post : Tally) {b : String × OrderedMap String IssueEntry}
    (hb : b ∈ (resultsOf pre post).bindings) : EntriesFit b.2 := by
  have hfilled : Filled (resultsOf pre post) := filled_foldl_enter filled_empty _ _
  have hfind : (resultsOf pre post).find? b.1 = some b.2 := (OrderedMap.mem_bindings_iff hfilled.ordered).1 hb
  have hordered : b.2.Ordered := hfilled.ordered_entries hfind
  refine ⟨hordered, fun c hc => ?_⟩
  have hentry : entryAt (resultsOf pre post) b.1 c.1 = some c.2 := by
    rw [entryAt, hfind]
    exact (OrderedMap.mem_bindings_iff hordered).1 hc
  refine fits_foldl_enter (fun m hm => ?_) (fun _ _ _ he => by cases he) _ hentry
  obtain ⟨i, -, rfl⟩ := List.mem_map.1 hm
  exact ⟨Tally.fits_count pre i, Tally.fits_count post i⟩

theorem wellFormed_ofReport {r : Report} (h : r.fileCounts.Stored) : (ofReport r).WellFormed where
  ordered := (filled_foldl_enter filled_empty _ _).ordered
  entries _ hb := entriesFit_resultsOf r.preTotal r.postTotal hb
  fileCounts := h

/-- Files are counted under no name without a low line that is not the name of a class. -/
theorem not_mem_keys_of_accounts {r : Report} {walk : List (Change × Fate)} (hr : r.Accounts walk)
    (h : r.fileCounts.Ordered) {name : String} (hname : '_' ∉ name.toList)
    (hkind : ∀ kind : Change.Kind, name ≠ kind.label) : name ∉ r.fileCounts.keys := by
  intro hmem
  obtain ⟨n, hn⟩ := (OrderedMap.mem_keys_iff h).1 hmem
  rcases hr.name_cases hn with ⟨kind, heq⟩ | ⟨f, -, rfl⟩
  · exact hkind kind heq
  · apply hname
    rw [Report.toList_lintedName]
    simp

/-- **A stored report is read back as it was.** Every report whose maps are in order and whose numbers have 64 bits,
that counts files under neither of the names of its fields, and whose failures have paths that are text, has a text
from which it is read back, with the members of every object in the order of their names. Every report of a contrast
whose failures have such paths is one of them. -/
theorem writeText_lossless :
    (∀ r : StructuredReport, r.WellFormed → "results" ∉ r.fileCounts.keys → "failures" ∉ r.fileCounts.keys →
      (∀ f ∈ r.failures, ∃ name, f.path.text? = some name) → r.ReadsBack) ∧
    ∀ {σ : Type} (b : Bench σ) (options : Options (Linter σ)) (source target : CommitId) (s s' : Session σ)
      (report : Report), (b.contrast options source target).exec s = (.ok report, s') →
      (∀ f ∈ report.failures, ∃ name, f.path.text? = some name) → (ofReport report).ReadsBack := by
  refine ⟨fun r => readsBack, fun b options source target s s' report h hpaths => ?_⟩
  obtain ⟨_, _, walk, -, -, -, -, hreport⟩ := Bench.exec_contrast_of_ok h
  have hstored := Report.stored_enterAll (Report.stored_start source target) hreport
  have haccounts := Report.accounts_enterAll (Report.accounts_start source target) hreport
  have hname {name : String} (hname : '_' ∉ name.toList) (hkind : ∀ kind : Change.Kind, name ≠ kind.label) :
      name ∉ (ofReport report).fileCounts.keys :=
    not_mem_keys_of_accounts haccounts hstored.ordered hname hkind
  exact readsBack (wellFormed_ofReport hstored) (hname (by decide) (by rintro ⟨⟩ <;> decide))
    (hname (by decide) (by rintro ⟨⟩ <;> decide)) hpaths

/-- A report with numbers at their limits and with characters that are escaped. -/
def brimful : StructuredReport where
  results := ⟨[("HLint", ⟨[("a \"b\"\n", ⟨-9223372036854775808, 9223372036854775807, .hint⟩)]⟩)]⟩
  fileCounts := ⟨[("added", 18446744073709551615), ("é", 0)]⟩
  failures := [⟨.ofString "a\\b.py", "Pylint", "no\treport"⟩]

/-- It is read back, and so is the report of a contrast that passes over a file. -/
theorem writeText_lossless_of_brimful :
    brimful.WellFormed ∧ "results" ∉ brimful.fileCounts.keys ∧ "failures" ∉ brimful.fileCounts.keys ∧
    (∀ f ∈ brimful.failures, ∃ name, f.path.text? = some name) ∧ brimful.ReadsBack ∧
    ∃ report s', ((Bench.placid [.added (.ofString "b.py") ⟨"2"⟩]).contrast
        ⟨none, Routing.empty.add ".py" ⟨"broken", false, fun path => Run.fail (.lintTool "broken" path "no report")⟩,
          .degrade⟩ ⟨"s"⟩ ⟨"t"⟩).exec (Session.start (.branch "main")) = (.ok report, s') ∧
      report.failures.length = 1 ∧ (ofReport report).ReadsBack := by
  have hwell : brimful.WellFormed :=
    { ordered := List.pairwise_singleton _ _
      entries := by
        rintro b hb
        obtain rfl := List.mem_singleton.1 hb
        exact ⟨List.pairwise_singleton _ _, by decide +kernel⟩
      fileCounts := ⟨List.pairwise_pair.2 (by decide), fun name n hn => by
        have hall : ∀ b ∈ brimful.fileCounts.bindings, b.2 < 18446744073709551616 := by decide +kernel
        exact hall _ (OrderedMap.mem_of_find? hn)⟩ }
  have hpaths : ∀ f ∈ brimful.failures, ∃ name, f.path.text? = some name := by
    intro f hf
    obtain rfl := List.mem_singleton.1 hf
    exact ⟨"a\\b.py", by decide +kernel⟩
  have hrun : ∃ report s', ((Bench.placid [.added (.ofString "b.py") ⟨"2"⟩]).contrast
      ⟨none, Routing.empty.add ".py" ⟨"broken", false, fun path => Run.fail (.lintTool "broken" path "no report")⟩,
        .degrade⟩ ⟨"s"⟩ ⟨"t"⟩).exec (Session.start (.branch "main")) = (.ok report, s') ∧
      report.failures.map (·.path.text?) = [some "b.py"] := ⟨_, _, rfl, rfl⟩
  obtain ⟨report, s', h, hnames⟩ := hrun
  refine ⟨hwell, by decide, by decide, hpaths, writeText_lossless.1 _ hwell (by decide) (by decide) hpaths, report, s', h,
    by simpa using congrArg List.length hnames, ?_⟩
  refine writeText_lossless.2 _ _ _ _ _ _ _ h fun f hf => ⟨"b.py", ?_⟩
  have hmem : f.path.text? ∈ report.failures.map (·.path.text?) := List.mem_map_of_mem hf
  rwa [hnames, List.mem_singleton] at hmem

end StructuredReport

end LintDelta
