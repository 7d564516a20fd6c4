import LintDelta.Proofs.Json.Compact
import LintDelta.Proofs.Linter.Reports

/-!
# Reports that list their findings

Five tools write a JSON document that lists what they found, entry by entry; two of them list the entries of several
files. A `Listing` says where the entries stand and which of their fields name an issue. A report is the tally of its
entries: every entry counts once for its issue, over all files, whatever else stands in the document
(`Listing.tally_of_entries`). It is a tally of all entries or of none: one entry without a field, with a value that is
not a text or with the field twice, and the report is rejected.
-/

namespace LintDelta

open Json (Doc Shape)

/-! ## Listings -/

/-- How a tool lists its findings. -/
structure Listing where
  tool : Tool
  /-- The entries of a document, those of all files one after another. -/
  entries? : Doc → Option (List Doc)
  /-- The name of the field that names an issue. -/
  symbol : String
  /-- The name of the field that grades it; a tool without one reports formatting alone. -/
  grade : Option String

namespace Listing

def pylint : Listing := ⟨.pylint, Doc.list?, "symbol", some "type"⟩

def hlint : Listing := ⟨.hlint, Doc.list?, "hint", some "severity"⟩

def oclint : Listing := ⟨.oclint, Doc.listAt? "violation", "rule", some "category"⟩

def ktlint : Listing := ⟨.ktlint, fun x => x.list?.bind (Doc.listsAt? "errors"), "rule", none⟩

def pmd : Listing := ⟨.pmd, fun x => (x.listAt? "files").bind (Doc.listsAt? "violations"), "rule", some "ruleset"⟩

def all : List Listing := [pylint, hlint, oclint, ktlint, pmd]

variable (l : Listing)

/-- The fields that every entry must have. -/
def required : List String := l.symbol :: l.grade.toList

/-- The category of an entry. -/
def category? (entry : Doc) : Option Category :=
  match l.grade with
  | none => some .format
  | some key => (entry.textAt? key).map .ofNative

/-- The issue of an entry. -/
def issue? (entry : Doc) : Option Issue :=
  (entry.textAt? l.symbol).bind fun symbol =>
    (l.category? entry).map fun category => .ofNative symbol l.tool.title category

/-- What spoils an entry: a field that is missing, that is not a text or that is there twice. -/
inductive Spoils (key : String) (ms : Doc.MemberList) : Prop
  | missing (h : Doc.under key ms = [])
  | notText (x : Doc) (h : x ∈ Doc.under key ms) (hx : ∀ s, x ≠ .text (some s))
  | repeated (h : 2 ≤ (Doc.under key ms).length)

/-- A field of an object is a text exactly if it does not spoil the entry. -/
theorem exists_textAt?_iff {key : String} {ms : Doc.MemberList} :
    (∃ s, (Doc.object ms).textAt? key = some s) ↔ Doc.legible ms = true ∧ ¬Spoils key ms := by
  rw [Doc.textAt?, Doc.at?]
  cases Doc.legible ms with
  | false => simp
  | true =>
    simp only [if_true, true_and]
    constructor
    · rintro ⟨s, h⟩
      obtain ⟨x, hunder, hx⟩ := Doc.once_none_eq_some_iff.1 h
      rintro (hmissing | ⟨y, hy, htext⟩ | hrepeated)
      · rw [hunder] at hmissing
        cases hmissing
      · rw [hunder, List.mem_singleton] at hy
        exact htext s (hy.trans (Doc.text?_eq_some_iff.1 hx))
      · rw [hunder] at hrepeated
        simp at hrepeated
    · intro hspoils
      rcases hunder : Doc.under key ms with _ | ⟨x, _ | ⟨y, more⟩⟩
      · exact absurd (.missing hunder) hspoils
      · by_contra hnone
        refine hspoils (.notText x (by rw [hunder]; exact List.mem_singleton_self x) ?_)
        rintro s rfl
        exact hnone ⟨s, rfl⟩
      · exact absurd (.repeated (by rw [hunder]; simp)) hspoils

variable {l}

/-- **An entry has an issue unless it is spoilt.** -/
theorem exists_issue?_iff {ms : Doc.MemberList} :
    (∃ i, l.issue? (.object ms) = some i) ↔ Doc.legible ms = true ∧ ∀ key ∈ l.required, ¬Spoils key ms := by
  have hfields : (∃ i, l.issue? (.object ms) = some i) ↔ ∀ key ∈ l.required, ∃ s, (Doc.object ms).textAt? key = some s := by
    rw [issue?, category?, required]
    cases hsymbol : (Doc.object ms).textAt? l.symbol with
    | none => simp [hsymbol]
    | some v =>
      cases l.grade with
      | none => simp [hsymbol]
      | some key => cases hgrade : (Doc.object ms).textAt? key <;> simp [hsymbol, hgrade]
  simp only [hfields, exists_textAt?_iff]
  constructor
  · exact fun h => ⟨(h l.symbol List.mem_cons_self).1, fun key hkey => (h key hkey).2⟩
  · exact fun ⟨hlegible, h⟩ key hkey => ⟨hlegible, h key hkey⟩

/-- A listing reads the documents of its tool: the findings are those of the entries, and an entry that is an object
is read as its issue. -/
structure Reads (l : Listing) (read? : Doc → Option Issue) : Prop where
  findings : ∀ {x report entries}, x.WrittenAs report → l.entries? x = some entries →
    (l.tool.findings report).toOption = entries.mapM read?
  object : ∀ ms, read? (.object ms) = l.issue? (.object ms)

/-! ### Each tool -/

/-- The shape of an entry with a field that grades it, and of one without. -/
def gradedShape (wanted symbol grade : String) : Shape :=
  .record wanted (Findings.field symbol (Findings.field grade .nil))

def ungradedShape (wanted symbol : String) : Shape :=
  .record wanted (Findings.field symbol .nil)

/-- What a tool makes of such an entry. -/
def graded (tool : Tool) {wanted symbol grade : String} (entry : (gradedShape wanted symbol grade).Val) : Issue :=
  .ofNative entry.1 tool.title (.ofNative entry.2.1)

def ungraded (tool : Tool) {wanted symbol : String} (entry : (ungradedShape wanted symbol).Val) : Issue :=
  .ofNative entry.1 tool.title .format

section

variable (wanted : String) (tool : Tool) (entries? : Doc → Option (List Doc)) (ms : Doc.MemberList)

theorem map_graded (symbol grade : String) :
    ((gradedShape wanted symbol grade).ofDoc? (.object ms)).map (graded tool) =
      (Listing.mk tool entries? symbol (some grade)).issue? (.object ms) := by
  have hentry : (gradedShape wanted symbol grade).ofDoc? (.object ms) =
      ((Doc.object ms).textAt? symbol).bind fun v => (((Doc.object ms).textAt? grade).map (·, ())).map (v, ·) :=
    (Shape.ofDoc?_required wanted symbol _ ms _).trans (congrArg (Option.bind _) (funext fun v =>
      congrArg (Option.map _) ((Shape.ofDoc?_required wanted grade .nil ms _).trans (Shape.at?_last wanted grade ms _ _))))
  rw [hentry]
  show _ = ((Doc.object ms).textAt? symbol).bind fun v => (((Doc.object ms).textAt? grade).map Category.ofNative).map _
  cases (Doc.object ms).textAt? symbol with
  | none => rfl
  | some v => cases (Doc.object ms).textAt? grade <;> rfl

theorem map_ungraded (symbol : String) :
    ((ungradedShape wanted symbol).ofDoc? (.object ms)).map (ungraded tool) =
      (Listing.mk tool entries? symbol none).issue? (.object ms) := by
  have hentry : (ungradedShape wanted symbol).ofDoc? (.object ms) = ((Doc.object ms).textAt? symbol).map (·, ()) :=
    (Shape.ofDoc?_required wanted symbol .nil ms _).trans (Shape.at?_last wanted symbol ms _ _)
  rw [hentry]
  show _ = ((Doc.object ms).textAt? symbol).bind fun v => (some Category.format).map _
  cases (Doc.object ms).textAt? symbol <;> rfl

end

theorem map_of_listAt? {wanted key : String} {item : Shape} {α : Type} (f : List item.Val × Unit → α) {x : Doc}
    {xs : List Doc} (h : x.listAt? key = some xs) :
    ((Shape.record wanted (.listed key item .nil)).ofDoc? x).map f =
      (xs.mapM fun x => item.ofDoc? x).map fun vs => f (vs, ()) :=
  (congrArg (Option.map f) (Shape.ofDoc?_of_listAt? wanted item h)).trans (Option.map_map ..)

/-- The entries of files, as the shape of a tool has them. -/
theorem flatMap_files {wanted key : String} {item : Shape} (issue : item.Val → Issue) {files entries : List Doc}
    (h : Doc.listsAt? key files = some entries) :
    (files.mapM fun x => (Shape.record wanted (.listed key item .nil)).ofDoc? x).map
        (List.flatMap fun file => file.1.map issue) =
      entries.mapM fun x => (item.ofDoc? x).map issue := by
  obtain ⟨lists, hlists, rfl⟩ := Option.map_eq_some_iff.1 h
  clear h
  induction files generalizing lists with
  | nil =>
    cases hlists
    rfl
  | cons file files ih =>
    rw [List.mapM_cons] at hlists
    obtain ⟨l, hl, hlists⟩ := Option.bind_eq_some_iff.1 hlists
    obtain ⟨ls, hls, hlists⟩ := Option.bind_eq_some_iff.1 hlists
    cases hlists
    rw [List.flatten_cons, List.mapM_append, ← ih ls hls, ← map_mapM, List.mapM_cons,
      Shape.ofDoc?_of_listAt? wanted item hl]
    cases l.mapM fun x => item.ofDoc? x with
    | none => rfl
    | some vs =>
      cases files.mapM fun x => (Shape.record wanted (.listed key item .nil)).ofDoc? x <;> rfl

theorem exists_reads (hl : l ∈ all) : ∃ read?, l.Reads read? := by
  simp only [all, List.mem_cons, List.not_mem_nil, or_false] at hl
  rcases hl with rfl | rfl | rfl | rfl | rfl
  · refine ⟨fun x => ((gradedShape "struct Message" "symbol" "type").ofDoc? x).map (graded .pylint),
      fun hx hentries => ?_, fun ms => map_graded _ _ _ ms _ _⟩
    refine (Findings.toOption_shaped (by decide) Findings.pylint hx).trans ?_
    exact (congrArg (Option.map Findings.pylint) (Shape.ofDoc?_of_list? _ hentries)).trans (map_mapM _ _ _)
  · refine ⟨fun x => ((gradedShape "struct Idea" "hint" "severity").ofDoc? x).map (graded .hlint),
      fun hx hentries => ?_, fun ms => map_graded _ _ _ ms _ _⟩
    refine (Findings.toOption_shaped (by decide) Findings.hlint hx).trans ?_
    exact (congrArg (Option.map Findings.hlint) (Shape.ofDoc?_of_list? _ hentries)).trans (map_mapM _ _ _)
  · refine ⟨fun x => ((gradedShape "struct Violation" "rule" "category").ofDoc? x).map (graded .oclint),
      fun hx hentries => ?_, fun ms => map_graded _ _ _ ms _ _⟩
    refine (Findings.toOption_shaped (by decide) Findings.oclint hx).trans ?_
    exact (map_of_listAt? Findings.oclint hentries).trans (map_mapM _ _ _)
  · refine ⟨fun x => ((ungradedShape "struct LintError" "rule").ofDoc? x).map (ungraded .ktlint),
      fun hx hentries => ?_, fun ms => map_ungraded _ _ _ ms _⟩
    obtain ⟨files, hfiles, hlists⟩ := Option.bind_eq_some_iff.1 hentries
    refine (Findings.toOption_shaped (by decide) Findings.ktlint hx).trans ?_
    exact (congrArg (Option.map Findings.ktlint) (Shape.ofDoc?_of_list? _ hfiles)).trans
      (flatMap_files (ungraded .ktlint) hlists)
  · refine ⟨fun x => ((gradedShape "struct Violation" "rule" "ruleset").ofDoc? x).map (graded .pmd),
      fun hx hentries => ?_, fun ms => map_graded _ _ _ ms _ _⟩
    obtain ⟨files, hfiles, hlists⟩ := Option.bind_eq_some_iff.1 hentries
    refine (Findings.toOption_shaped (by decide) Findings.pmd hx).trans ?_
    exact (map_of_listAt? Findings.pmd hfiles).trans (flatMap_files (graded .pmd) hlists)

theorem takes_entries (hl : l ∈ all) {x : Doc} {entries : List Doc} (h : l.entries? x = some entries) :
    x.Takes entries.length := by
  simp only [all, List.mem_cons, List.not_mem_nil, or_false] at hl
  rcases hl with rfl | rfl | rfl | rfl | rfl
  · exact Doc.takes_length_of_list? h
  · exact Doc.takes_length_of_list? h
  · exact Doc.takes_length_of_listAt? h
  · obtain ⟨files, hfiles, hlists⟩ := Option.bind_eq_some_iff.1 h
    rw [Doc.length_of_listsAt? hlists]
    exact Doc.takes_of_list? hfiles fun file _ => file.takes_lengthAt "errors"
  · obtain ⟨files, hfiles, hlists⟩ := Option.bind_eq_some_iff.1 h
    rw [Doc.length_of_listsAt? hlists]
    exact Doc.takes_of_listAt? hfiles fun file _ => file.takes_lengthAt "violations"

/-- **A report is the tally of its entries**, or it is rejected as a whole: if every entry has an issue, then each issue
counts as often as entries have it, and if one entry is spoilt, there is no tally.

The report is a text that fits in memory: counts are of 64 bits, and it has no more entries than characters. -/
theorem tally_of_entries (hl : l ∈ all) {x : Doc} {report : String} (h : x.WrittenAs report)
    (hlength : report.length < 2 ^ 63) {entries : List Doc} (hentries : l.entries? x = some entries) :
    (∀ issues, entries.mapM l.issue? = some issues →
      ∃ t, l.tool.parseReport report = .ok t ∧ ∀ i, t.count i = issues.count i) ∧
    ((∃ ms, .object ms ∈ entries ∧ ∃ key ∈ l.required, Spoils key ms) →
      ∃ e, l.tool.parseReport report = .error e) := by
  obtain ⟨read?, hreads⟩ := exists_reads hl
  have hfindings := hreads.findings h hentries
  constructor
  · intro issues hissues
    have hread : entries.mapM read? = some issues := by
      refine mapM_mono (fun entry i hi => ?_) hissues
      cases entry with
      | object ms => rwa [hreads.object ms]
      | _ => cases hi
    have hle := h.le_length (takes_entries hl hentries)
    have hlen := length_of_mapM hissues
    exact Tool.exists_tally_of_findings (hfindings.trans hread) (by omega)
  · rintro ⟨ms, hms, key, hkey, hspoils⟩
    refine Tool.exists_error_of_findings (hfindings.trans ?_)
    by_contra hne
    obtain ⟨i, hi⟩ := exists_mapM_iff.1 (Option.ne_none_iff_exists'.1 hne) _ hms
    rw [hreads.object] at hi
    exact (exists_issue?_iff.1 ⟨i, hi⟩).2 key hkey hspoils

/-- Entries of two files, with a field that is passed over. -/
def twoFiles : Doc :=
  .list [.object [(some "errors", .list [.object [(some "rule", .text (some "a b"))]])],
    .object [(some "errors", .list [.object [(some "x", .text none), (some "rule", .text (some "a/b"))]])]]

/-- An entry behind another one whose rule is a number. -/
def spoiltFile : Doc :=
  .list [.object [(some "errors", .list [.object [(some "rule", .text (some "a"))], .object [(some "rule", .scalar)]])]]

/-- The entries of two files count for one issue, and a spoilt entry spoils the report. -/
theorem tally_of_entries_of_two_files :
    ktlint ∈ all ∧
    (∃ t, Tool.ktlint.parseReport ("[\x7b\"errors\":[\x7b\"rule\":\"a b\"\x7d]\x7d," ++
        "\x7b\"errors\":[\x7b\"x\":\"\\ud800\",\"rule\":\"a/b\"\x7d]\x7d]") = .ok t ∧
      t.count ⟨"a-b", "ktlint", .format⟩ = 2) ∧
    ∃ e, Tool.ktlint.parseReport
      "[\x7b\"errors\":[\x7b\"rule\":\"a\"\x7d,\x7b\"rule\":0\x7d]\x7d]" = .error e := by
  have hmem : ktlint ∈ all := by simp [all]
  have hissues : ([.object [(some "rule", .text (some "a b"))],
      .object [(some "x", .text none), (some "rule", .text (some "a/b"))]] : List Doc).mapM ktlint.issue? =
        some [⟨"a-b", "ktlint", .format⟩, ⟨"a-b", "ktlint", .format⟩] := by decide
  obtain ⟨hok, -⟩ := tally_of_entries hmem twoFiles.writtenAs_compact (by decide) rfl
  obtain ⟨t, ht, hcount⟩ := hok _ hissues
  obtain ⟨-, herror⟩ := tally_of_entries hmem spoiltFile.writtenAs_compact (by decide) rfl
  refine ⟨hmem, ⟨t, ht, (hcount _).trans (by decide)⟩, herror ⟨[(some "rule", .scalar)], by simp, "rule", by decide, ?_⟩⟩
  exact .notText .scalar (List.mem_singleton_self _) nofun

end Listing

end LintDelta
