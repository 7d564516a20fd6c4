import Mathlib.Data.List.TakeWhile
import LintDelta.Proofs.Tally.Arithmetic
import LintDelta.Report.Structured

/-!
# What structured results hold

The results of two tallies are maps in a map, filled by insertions that replace what they meet. Nothing
is lost because no two issues of one linter have the same key (`keyAmong_inj`). The keys come from two
rules, the bare symbol and the symbol with a category behind it, and what keeps them apart is that a
symbol holds no space.

Main statement: the entries are the issues of either tally, each once, and both tallies can be read off
them again (`resultsOf_lossless`).
-/

namespace LintDelta

/-- An issue as tools report them: its symbol comes from a native name. -/
def Issue.IsNative (i : Issue) : Prop :=
  ∃ native, i = .ofNative native i.linter i.category

theorem Issue.IsNative.space_not_mem {i : Issue} (h : i.IsNative) : ' ' ∉ i.symbol.toList := by
  obtain ⟨native, h⟩ := h
  rw [h]
  exact fun hmem => (ne_of_mem_normalizeSymbol hmem).1 rfl

theorem Issue.IsNative.forall_ne_space {i : Issue} (h : i.IsNative) :
    ∀ c ∈ i.symbol.toList, decide (c ≠ ' ') = true := fun _ hc =>
  decide_eq_true fun heq => h.space_not_mem (heq ▸ hc)

namespace StructuredReport

/-- For each linter its entries under their keys. -/
abbrev Results := OrderedMap String (OrderedMap String IssueEntry)

/-! ## Keys -/

/-- The key of an issue among others: the symbol, with the category behind it where the linter has the
symbol in another category too. -/
def keyAmong (issues : List Issue) (i : Issue) : String :=
  if ∃ j ∈ issues, j.linter = i.linter ∧ j.symbol = i.symbol ∧ j.category ≠ i.category then
    i.symbol ++ " (" ++ i.category.label ++ ")"
  else i.symbol

/-- The issue of an entry: its key ends at the first space, and the entry has the category. -/
def issueOf (linter key : String) (e : IssueEntry) : Issue :=
  ⟨String.ofList (key.toList.takeWhile (· ≠ ' ')), linter, e.category⟩

theorem takeWhile_symbol {i : Issue} (h : i.IsNative) (rest : List Char) :
    (i.symbol.toList ++ ' ' :: rest).takeWhile (· ≠ ' ') = i.symbol.toList := by
  rw [List.takeWhile_append_of_pos h.forall_ne_space]
  simp

/-- **A key tells the symbol**, whichever rule it comes from. -/
theorem takeWhile_keyAmong {i : Issue} (h : i.IsNative) (issues : List Issue) :
    (keyAmong issues i).toList.takeWhile (· ≠ ' ') = i.symbol.toList := by
  unfold keyAmong
  split
  · have hkey : (i.symbol ++ " (" ++ i.category.label ++ ")").toList =
        i.symbol.toList ++ ' ' :: ('(' :: i.category.label.toList ++ [')']) := by
      simp [String.toList_append]
    rw [hkey, takeWhile_symbol h]
  · exact List.takeWhile_eq_self_iff.2 h.forall_ne_space

theorem issueOf_keyAmong {i : Issue} (h : i.IsNative) (issues : List Issue) {e : IssueEntry}
    (he : e.category = i.category) : issueOf i.linter (keyAmong issues i) e = i := by
  rw [issueOf, takeWhile_keyAmong h, String.ofList_toList, he]

/-- **No two issues of one linter have the same key.** -/
theorem keyAmong_inj {issues : List Issue} {i j : Issue} (hi : i ∈ issues) (hj : j ∈ issues)
    (hni : i.IsNative) (hnj : j.IsNative) (hlinter : i.linter = j.linter)
    (h : keyAmong issues i = keyAmong issues j) : i = j := by
  have hsymbol : i.symbol = j.symbol := by
    rw [← String.toList_inj, ← takeWhile_keyAmong hni issues, h, takeWhile_keyAmong hnj]
  suffices hcategory : i.category = j.category by
    cases i
    cases j
    simp_all
  -- if they differ, both keys end in the category
  refine Classical.byContradiction fun hne => ?_
  have hki : ∃ k ∈ issues, k.linter = i.linter ∧ k.symbol = i.symbol ∧ k.category ≠ i.category :=
    ⟨j, hj, hlinter.symm, hsymbol.symm, Ne.symm hne⟩
  have hkj : ∃ k ∈ issues, k.linter = j.linter ∧ k.symbol = j.symbol ∧ k.category ≠ j.category :=
    ⟨i, hi, hlinter, hsymbol, hne⟩
  rw [keyAmong, if_pos hki, keyAmong, if_pos hkj, hsymbol] at h
  have hlabel : i.category.label = j.category.label := by
    simpa [← String.toList_inj, String.toList_append] using h
  exact hne (Category.label_injective hlabel)

/-- In a list that names nothing twice, a second element has a property exactly if another one has it. -/
theorem one_lt_countP_iff {l : List Issue} (hl : l.Nodup) {p : Issue → Bool} {i : Issue} (hi : i ∈ l)
    (hp : p i = true) : 1 < l.countP p ↔ ∃ j ∈ l, j ≠ i ∧ p j = true := by
  rw [(List.perm_cons_erase hi).countP_eq, List.countP_cons_of_pos hp]
  have hpos : 1 < (l.erase i).countP p + 1 ↔ 0 < (l.erase i).countP p := by omega
  rw [hpos, List.countP_pos_iff]
  simp only [hl.mem_erase_iff, and_comm, and_assoc]

/-- The issues of either tally, in order. -/
def issuesOf (pre post : Tally) : List Issue :=
  OrderedMap.distinct (pre.issues ++ post.issues)

/-- The entry of an issue. -/
def entryOf (pre post : Tally) (i : Issue) : IssueEntry :=
  ⟨pre.count i, post.count i, i.category⟩

theorem nodup_issuesOf (pre post : Tally) : (issuesOf pre post).Nodup :=
  OrderedMap.nodup_distinct _

theorem mem_issuesOf {pre post : Tally} {i : Issue} :
    i ∈ issuesOf pre post ↔ pre.count i ≠ 0 ∨ post.count i ≠ 0 := by
  rw [issuesOf, OrderedMap.mem_distinct, List.mem_append, Tally.mem_issues_iff, Tally.mem_issues_iff]

theorem compare_eq_map (pre post : Tally) :
    Tally.compare pre post = (issuesOf pre post).map fun i => ⟨i, pre.count i, post.count i⟩ := rfl

/-- A symbol that is counted more than once among the movements occurs in another category. -/
theorem key_eq_keyAmong {pre post : Tally} {i : Issue} (hi : i ∈ issuesOf pre post) :
    key (Tally.compare pre post) i = keyAmong (issuesOf pre post) i := by
  have hshared : isShared (Tally.compare pre post) i = true ↔
      ∃ j ∈ issuesOf pre post, j.linter = i.linter ∧ j.symbol = i.symbol ∧ j.category ≠ i.category := by
    rw [isShared, compare_eq_map, decide_eq_true_iff, List.countP_map,
      one_lt_countP_iff (nodup_issuesOf pre post) hi (by simp)]
    refine exists_congr fun j => and_congr_right fun _ => ?_
    simp only [Function.comp_apply, Bool.and_eq_true, decide_eq_true_eq]
    constructor
    · rintro ⟨hne, hlinter, hsymbol⟩
      refine ⟨hlinter, hsymbol, fun hcategory => hne ?_⟩
      cases i
      cases j
      simp_all
    · rintro ⟨hlinter, hsymbol, hcategory⟩
      exact ⟨fun heq => hcategory (heq ▸ rfl), hlinter, hsymbol⟩
  unfold key keyAmong
  by_cases h : isShared (Tally.compare pre post) i = true
  · rw [if_pos h, if_pos (hshared.1 h)]
  · rw [if_neg h, if_neg fun h' => h (hshared.2 h')]

/-! ## Entries -/

/-- The entry of a linter under a key. -/
def entryAt (r : Results) (linter key : String) : Option IssueEntry :=
  (r.find? linter).bind (·.find? key)

/-- All entries, each with its linter and its key. -/
def listing (r : Results) : List (String × String × IssueEntry) :=
  r.bindings.flatMap fun (linter, entries) => entries.bindings.map fun (key, e) => (linter, key, e)

/-- Results that insertions make: in order, and without a linter that has no entries. -/
structure Filled (r : Results) : Prop where
  ordered : r.Ordered
  ordered_entries : ∀ {linter entries}, r.find? linter = some entries → entries.Ordered
  ne_nil : ∀ {linter entries}, r.find? linter = some entries → entries.bindings ≠ []

theorem put_ne_nil {κ ν : Type} [Ord κ] (k : κ) (v : ν) (l : List (κ × ν)) :
    OrderedMap.put k v l ≠ [] := by
  cases l with
  | nil => nofun
  | cons b rest =>
    unfold OrderedMap.put
    split <;> nofun

theorem filled_empty : Filled ∅ := ⟨OrderedMap.ordered_empty, nofun, nofun⟩

/-- The entries to which an issue of a linter is added. -/
theorem ordered_entries_getD {r : Results} (h : Filled r) (linter : String) :
    ((r.find? linter).getD ∅).Ordered := by
  cases hf : r.find? linter with
  | none => exact OrderedMap.ordered_empty
  | some entries => exact h.ordered_entries hf

theorem filled_enter {r : Results} (h : Filled r) (ms : List Tally.Movement) (m : Tally.Movement) :
    Filled (enter ms r m) := by
  have hfind (linter : String) (entries : OrderedMap String IssueEntry)
      (hf : (enter ms r m).find? linter = some entries) :
      entries.Ordered ∧ entries.bindings ≠ [] := by
    unfold enter at hf
    by_cases hl : linter = m.issue.linter
    · subst hl
      rw [OrderedMap.find?_insert_self] at hf
      cases hf
      exact ⟨OrderedMap.ordered_insert (ordered_entries_getD h _) _ _, put_ne_nil _ _ _⟩
    · rw [OrderedMap.find?_insert_of_ne r _ hl] at hf
      exact ⟨h.ordered_entries hf, h.ne_nil hf⟩
  exact ⟨OrderedMap.ordered_insert h.ordered _ _, fun hf => (hfind _ _ hf).1, fun hf => (hfind _ _ hf).2⟩

theorem entryAt_enter (r : Results) (ms : List Tally.Movement) (m : Tally.Movement)
    (linter k : String) :
    entryAt (enter ms r m) linter k =
      if linter = m.issue.linter ∧ k = key ms m.issue then some ⟨m.pre, m.post, m.issue.category⟩
      else entryAt r linter k := by
  unfold entryAt enter
  by_cases hl : linter = m.issue.linter
  · subst hl
    rw [OrderedMap.find?_insert_self, Option.bind_some]
    by_cases hk : k = key ms m.issue
    · subst hk
      rw [OrderedMap.find?_insert_self]
      simp
    · rw [OrderedMap.find?_insert_of_ne _ _ hk]
      simp only [hk, and_false, if_false]
      cases r.find? m.issue.linter <;> rfl
  · rw [OrderedMap.find?_insert_of_ne r _ hl]
    simp [hl]

/-- **What entering movements does**, by induction on them: if no two share a linter and a key, then each
has its entry, and there is no other. -/
theorem entryAt_foldl_enter {ms : List Tally.Movement} {r : Results} (hr : Filled r)
    {all : List Tally.Movement}
    (hinj : ms.Pairwise fun m m' =>
      ¬ (m.issue.linter = m'.issue.linter ∧ key all m.issue = key all m'.issue)) :
    Filled (ms.foldl (enter all) r) ∧ ∀ linter k e, entryAt (ms.foldl (enter all) r) linter k = some e ↔
      (∃ m ∈ ms, m.issue.linter = linter ∧ key all m.issue = k ∧ ⟨m.pre, m.post, m.issue.category⟩ = e) ∨
      (∀ m ∈ ms, ¬ (m.issue.linter = linter ∧ key all m.issue = k)) ∧ entryAt r linter k = some e := by
  induction ms generalizing r with
  | nil => exact ⟨hr, fun linter k e => by simp⟩
  | cons m rest ih =>
    obtain ⟨hm, hrest⟩ := List.pairwise_cons.1 hinj
    obtain ⟨hfilled, hentries⟩ := ih (filled_enter hr all m) hrest
    refine ⟨hfilled, fun linter k e => ?_⟩
    rw [List.foldl_cons, hentries, entryAt_enter]
    by_cases haddr : linter = m.issue.linter ∧ k = key all m.issue
    · obtain ⟨rfl, rfl⟩ := haddr
      -- the rest has other keys, so the entry of `m` stays
      have hother : ∀ m' ∈ rest,
          ¬ (m'.issue.linter = m.issue.linter ∧ key all m'.issue = key all m.issue) :=
        fun m' hm' heq => hm m' hm' ⟨heq.1.symm, heq.2.symm⟩
      simp only [and_self, if_true, Option.some.injEq, List.mem_cons]
      constructor
      · rintro (⟨m', hm', hl, hk, -⟩ | ⟨-, rfl⟩)
        · exact absurd ⟨hl, hk⟩ (hother m' hm')
        · exact Or.inl ⟨m, Or.inl rfl, rfl, rfl, rfl⟩
      · rintro (⟨m', rfl | hm', hl, hk, rfl⟩ | ⟨hnone, -⟩)
        · exact Or.inr ⟨hother, rfl⟩
        · exact absurd ⟨hl, hk⟩ (hother m' hm')
        · exact absurd ⟨rfl, rfl⟩ (hnone m (Or.inl rfl))
    · have hm' : ¬ (m.issue.linter = linter ∧ key all m.issue = k) := fun heq =>
        haddr ⟨heq.1.symm, heq.2.symm⟩
      rw [if_neg haddr]
      simp only [List.mem_cons, forall_eq_or_imp, hm', not_false_eq_true, true_and, exists_eq_or_imp]
      constructor
      · exact Or.imp_left Or.inr
      · rintro ((⟨hl, hk, -⟩ | h) | h)
        · exact absurd ⟨hl, hk⟩ hm'
        · exact Or.inl h
        · exact Or.inr h

/-- What is listed is what is found. -/
theorem mem_listing_iff {r : Results} (h : Filled r) {linter k : String} {e : IssueEntry} :
    (linter, k, e) ∈ listing r ↔ entryAt r linter k = some e := by
  simp only [listing, List.mem_flatMap, List.mem_map, Prod.exists, Prod.mk.injEq, entryAt,
    Option.bind_eq_some_iff]
  constructor
  · rintro ⟨l, entries, hl, k', e', hk, rfl, rfl, rfl⟩
    have hfind := (OrderedMap.mem_bindings_iff h.ordered).1 hl
    exact ⟨entries, hfind, (OrderedMap.mem_bindings_iff (h.ordered_entries hfind)).1 hk⟩
  · rintro ⟨entries, hfind, hk⟩
    exact ⟨linter, entries, OrderedMap.mem_of_find? hfind, k, e, OrderedMap.mem_of_find? hk, rfl, rfl, rfl⟩

theorem nodup_listing {r : Results} (h : Filled r) : (listing r).Nodup := by
  refine List.pairwise_flatMap.2 ⟨fun b hb => ?_, ?_⟩
  · have hfind := (OrderedMap.mem_bindings_iff h.ordered).1 (show (b.1, b.2) ∈ r.bindings from hb)
    refine List.pairwise_map.2 ((List.pairwise_map.1
      (OrderedMap.nodup_keys (h.ordered_entries hfind))).imp fun hne heq => ?_)
    exact hne (congrArg (·.2.1) heq)
  · refine (List.pairwise_map.1 (OrderedMap.nodup_keys h.ordered)).imp fun hne x hx y hy heq => ?_
    obtain ⟨_, -, rfl⟩ := List.mem_map.1 hx
    obtain ⟨_, -, rfl⟩ := List.mem_map.1 hy
    exact hne (congrArg (·.1) heq)

/-! ## The results of two tallies -/

/-- The address of an issue and what is entered there. -/
def lineOf (pre post : Tally) (i : Issue) : String × String × IssueEntry :=
  (i.linter, keyAmong (issuesOf pre post) i, entryOf pre post i)

section

variable {pre post : Tally}

/-- Distinct issues are entered at distinct addresses. -/
theorem pairwise_address (h : ∀ i ∈ issuesOf pre post, i.IsNative) :
    (Tally.compare pre post).Pairwise fun m m' =>
      ¬ (m.issue.linter = m'.issue.linter ∧
        key (Tally.compare pre post) m.issue = key (Tally.compare pre post) m'.issue) := by
  refine List.pairwise_map.2 ((nodup_issuesOf pre post).imp_of_mem fun {i j} hi hj hne heq => ?_)
  rw [key_eq_keyAmong hi, key_eq_keyAmong hj] at heq
  exact hne (keyAmong_inj hi hj (h i hi) (h j hj) heq.1 heq.2)

theorem filled_resultsOf (h : ∀ i ∈ issuesOf pre post, i.IsNative) : Filled (resultsOf pre post) :=
  (entryAt_foldl_enter filled_empty (pairwise_address h)).1

/-- An entry stands for an issue, and every issue has one. -/
theorem entryAt_resultsOf_iff (h : ∀ i ∈ issuesOf pre post, i.IsNative) {linter k : String}
    {e : IssueEntry} :
    entryAt (resultsOf pre post) linter k = some e ↔
      ∃ i ∈ issuesOf pre post, lineOf pre post i = (linter, k, e) := by
  rw [resultsOf, (entryAt_foldl_enter filled_empty (pairwise_address h)).2, compare_eq_map]
  constructor
  · rintro (⟨m, hm, rfl, hk, rfl⟩ | ⟨-, hempty⟩)
    · obtain ⟨i, hi, rfl⟩ := List.mem_map.1 hm
      rw [← compare_eq_map, key_eq_keyAmong hi] at hk
      exact ⟨i, hi, by rw [lineOf, hk, entryOf]⟩
    · cases hempty
  · rintro ⟨i, hi, hline⟩
    cases hline
    exact Or.inl ⟨_, List.mem_map.2 ⟨i, hi, rfl⟩, rfl, key_eq_keyAmong hi, rfl⟩

theorem listing_resultsOf_perm (h : ∀ i ∈ issuesOf pre post, i.IsNative) :
    (listing (resultsOf pre post)).Perm ((issuesOf pre post).map (lineOf pre post)) := by
  refine (List.perm_ext_iff_of_nodup (nodup_listing (filled_resultsOf h)) ?_).2 fun line => ?_
  · refine List.pairwise_map.2 ((nodup_issuesOf pre post).imp_of_mem fun {i j} hi hj hne heq => hne ?_)
    exact keyAmong_inj hi hj (h i hi) (h j hj) (congrArg (·.1) heq) (congrArg (·.2.1) heq)
  · obtain ⟨linter, k, e⟩ := line
    rw [mem_listing_iff (filled_resultsOf h), entryAt_resultsOf_iff h, List.mem_map]

/-- The tally of one of the two counts of each entry. -/
def tallyOf (count : IssueEntry → Int) (r : Results) : Option Tally :=
  Tally.ofCounts ((listing r).map fun (linter, k, e) => (issueOf linter k e, count e))

/-- **The entries make up a tally again**, if each holds the tally's count of its issue. -/
theorem tallyOf_resultsOf (h : ∀ i ∈ issuesOf pre post, i.IsNative) {count : IssueEntry → Int}
    {t : Tally} (ht : ∀ i, count (entryOf pre post i) = t.count i)
    (hissues : ∀ i, t.count i ≠ 0 → i ∈ issuesOf pre post) :
    tallyOf count (resultsOf pre post) = some t := by
  -- up to order the entries are the issues, each with its count
  have hperm : ((listing (resultsOf pre post)).map fun (linter, k, e) => (issueOf linter k e, count e)).Perm
      ((issuesOf pre post).map fun i => (i, t.count i)) := by
    refine ((listing_resultsOf_perm h).map _).trans (List.Perm.of_eq ?_)
    rw [List.map_map]
    refine List.map_congr_left fun i hi => ?_
    simp only [Function.comp_apply, lineOf, ht, issueOf_keyAmong (h i hi) (issuesOf pre post)
      (show (entryOf pre post i).category = i.category from rfl)]
  refine Tally.ofCounts_eq_some ?_ (fun b hb => ?_) fun i => ?_
  · refine (hperm.map (·.1)).nodup_iff.2 ?_
    rw [List.map_map]
    simpa [Function.comp_def] using nodup_issuesOf pre post
  · obtain ⟨i, -, rfl⟩ := List.mem_map.1 (hperm.mem_iff.1 hb)
    exact Tally.fits_count t i
  · rw [Tally.countIn_perm hperm, Tally.countIn_map (nodup_issuesOf pre post)]
    split
    · rfl
    · next hi => exact (Decidable.byContradiction fun hne => hi (hissues i hne)).symm

end

/-- **Structured results lose nothing and merge nothing.** For tallies of issues as tools report them:
the entries are the issues of either tally, each once, under the linter and a key of its own, with both
counts and the category; an entry is found under its issue's key; no two issues share linter and key, and
no linter stands without an entry; and the keys and categories tell the issues, so that both tallies can be
read off the entries. -/
theorem resultsOf_lossless {pre post : Tally} (hpre : ∀ i ∈ pre.issues, i.IsNative)
    (hpost : ∀ i ∈ post.issues, i.IsNative) :
    ((listing (resultsOf pre post)).Perm ((issuesOf pre post).map fun i =>
      (i.linter, keyAmong (issuesOf pre post) i, ⟨pre.count i, post.count i, i.category⟩))) ∧
    (∀ i, i ∈ pre.issues ∨ i ∈ post.issues →
      entryAt (resultsOf pre post) i.linter (keyAmong (issuesOf pre post) i) =
        some ⟨pre.count i, post.count i, i.category⟩) ∧
    (∀ i ∈ issuesOf pre post, ∀ j ∈ issuesOf pre post, i.linter = j.linter →
      keyAmong (issuesOf pre post) i = keyAmong (issuesOf pre post) j → i = j) ∧
    (∀ linter entries, (resultsOf pre post).find? linter = some entries → entries.bindings ≠ []) ∧
    tallyOf (·.pre) (resultsOf pre post) = some pre ∧
    tallyOf (·.post) (resultsOf pre post) = some post := by
  have h : ∀ i ∈ issuesOf pre post, i.IsNative := fun i hi =>
    (mem_issuesOf.1 hi).elim (fun hc => hpre i (Tally.mem_issues_iff.2 hc))
      fun hc => hpost i (Tally.mem_issues_iff.2 hc)
  refine ⟨listing_resultsOf_perm h, fun i hi => ?_, fun i hi j hj => keyAmong_inj hi hj (h i hi) (h j hj),
    fun _ _ => (filled_resultsOf h).ne_nil, ?_, ?_⟩
  · rw [Tally.mem_issues_iff, Tally.mem_issues_iff] at hi
    exact (entryAt_resultsOf_iff h).2 ⟨i, mem_issuesOf.2 hi, rfl⟩
  · exact tallyOf_resultsOf h (fun _ => rfl) fun i hc => mem_issuesOf.2 (Or.inl hc)
  · exact tallyOf_resultsOf h (fun _ => rfl) fun i hc => mem_issuesOf.2 (Or.inr hc)

/-- Occurrences of Cppcheck's `shadow` under two categories. -/
def shadows : Tally :=
  (Tally.ofIssues [.ofNative "shadow" "Cppcheck" .warning, .ofNative "shadow" "Cppcheck" .format,
    .ofNative "shadow" "Cppcheck" .format]).getD ∅

/-- What is left of them: one category after the change, but two in the results. -/
def shadowsLeft : Tally :=
  (Tally.ofIssues [.ofNative "shadow" "Cppcheck" .format]).getD ∅

theorem resultsOf_lossless_of_shadows :
    (∀ i ∈ shadows.issues, i.IsNative) ∧ (∀ i ∈ shadowsLeft.issues, i.IsNative) ∧
    entryAt (resultsOf shadows shadowsLeft) "Cppcheck" "shadow (format)" = some ⟨2, 1, .format⟩ ∧
    tallyOf (·.pre) (resultsOf shadows shadowsLeft) = some shadows ∧
    tallyOf (·.post) (resultsOf shadows shadowsLeft) = some shadowsLeft := by
  have hpre : ∀ i ∈ shadows.issues, i.IsNative := by
    rw [show shadows.issues = [.ofNative "shadow" "Cppcheck" .format,
      .ofNative "shadow" "Cppcheck" .warning] by decide +kernel]
    rintro i (_ | ⟨_, _ | ⟨_, ⟨⟩⟩⟩) <;> exact ⟨"shadow", rfl⟩
  have hpost : ∀ i ∈ shadowsLeft.issues, i.IsNative := by
    rw [show shadowsLeft.issues = [.ofNative "shadow" "Cppcheck" .format] by decide +kernel]
    rintro i (_ | ⟨_, ⟨⟩⟩)
    exact ⟨"shadow", rfl⟩
  obtain ⟨-, hfind, -, -, hreadPre, hreadPost⟩ := resultsOf_lossless hpre hpost
  refine ⟨hpre, hpost, ?_, hreadPre, hreadPost⟩
  have hshared := hfind (.ofNative "shadow" "Cppcheck" .format) (Or.inl (by decide +kernel))
  rwa [show keyAmong (issuesOf shadows shadowsLeft) (.ofNative "shadow" "Cppcheck" .format) =
    "shadow (format)" by decide +kernel, show shadows.count (.ofNative "shadow" "Cppcheck" .format) = 2
    by decide +kernel, show shadowsLeft.count (.ofNative "shadow" "Cppcheck" .format) = 1
    by decide +kernel] at hshared

end StructuredReport

end LintDelta
