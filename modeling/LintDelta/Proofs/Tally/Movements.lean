import LintDelta.Proofs.Tally.Canonical
import LintDelta.Proofs.Tally.Group

/-!
# Movements and nets

The difference of two tallies is computed twice. `compare` lists every issue of either tally with both
counts, for people to read; `net` negates one tally and adds it to the other, which drops the issues that
did not move. Both tell the same: the entries of a net are the movements that are not zero, in the same
order and with the same number, and a net is missing exactly when the number of some movement is, or when
a count before the change has no negative.

Main statement: `compare_tells_net`.
-/

namespace LintDelta

namespace Tally

variable {pre post t : Tally}

/-! ## What is listed -/

/-- Movements rise strictly by issue, so no issue is listed twice. -/
theorem pairwise_compare (pre post : Tally) :
    (compare pre post).Pairwise fun m m' => Ord.compare m.issue m'.issue = .lt := by
  have hdistinct : (OrderedMap.distinct (pre.issues ++ post.issues)).Pairwise
      fun i j => Ord.compare i j = .lt := by
    rw [OrderedMap.distinct, OrderedMap.keys, List.pairwise_map]
    exact OrderedMap.ordered_ofList _
  rw [compare, List.pairwise_map]
  exact hdistinct

theorem mem_compare_iff {m : Movement} :
    m ∈ compare pre post ↔
      m.pre = pre.count m.issue ∧ m.post = post.count m.issue ∧ (m.pre ≠ 0 ∨ m.post ≠ 0) := by
  have hmem (i : Issue) : i ∈ OrderedMap.distinct (pre.issues ++ post.issues) ↔
      pre.count i ≠ 0 ∨ post.count i ≠ 0 := by
    rw [OrderedMap.mem_distinct, List.mem_append, mem_issues_iff, mem_issues_iff]
  rw [compare, List.mem_map]
  constructor
  · rintro ⟨i, hi, rfl⟩
    exact ⟨rfl, rfl, (hmem i).1 hi⟩
  · intro ⟨hpre, hpost, hne⟩
    rw [hpre, hpost] at hne
    refine ⟨m.issue, (hmem m.issue).2 hne, ?_⟩
    rw [← hpre, ← hpost]

/-! ## What is missing -/

/-- An issue of neither tally does not move, so only a listed movement can be out of range. -/
theorem exists_net_eq_none_iff :
    (∃ m ∈ compare pre post, m.net = none) ↔
      ∃ i, Machine.fits (post.count i - pre.count i) = false := by
  constructor
  · rintro ⟨m, hm, hnone⟩
    obtain ⟨hpre, hpost, -⟩ := mem_compare_iff.1 hm
    rw [Movement.net, Machine.sub, Machine.check_eq_none_iff, hpre, hpost] at hnone
    exact ⟨m.issue, hnone⟩
  · rintro ⟨i, hi⟩
    have hne : pre.count i ≠ 0 ∨ post.count i ≠ 0 := by
      by_contra hzero
      simp only [not_or, not_not] at hzero
      rw [hzero.1, hzero.2] at hi
      cases hi
    refine ⟨⟨i, pre.count i, post.count i⟩, mem_compare_iff.2 ⟨rfl, rfl, hne⟩, ?_⟩
    rw [Movement.net, Machine.sub, Machine.check_eq_none_iff]
    exact hi

/-! ## What is stored -/

/-- What a movement leaves in a net: its issue with its number, unless that is zero. -/
def Movement.entry? (m : Movement) : Option (Issue × Int) :=
  m.net.bind fun n => if n = 0 then none else some (m.issue, n)

theorem Movement.issue_of_entry? {m : Movement} {entry : Issue × Int} (h : m.entry? = some entry) :
    entry.1 = m.issue := by
  obtain ⟨n, -, h⟩ := Option.bind_eq_some_iff.1 h
  split at h
  · cases h
  · cases h
    rfl

/-- Where there is a net, it counts what each movement comes to. -/
theorem net_of_mem_compare (h : net pre post = some t) {m : Movement} (hm : m ∈ compare pre post) :
    m.net = some (t.count m.issue) := by
  obtain ⟨hpre, hpost, -⟩ := mem_compare_iff.1 hm
  have hcount : m.post - m.pre = t.count m.issue := by
    rw [count_net h, hpre, hpost]
  exact Machine.check_eq_some_iff.2 ⟨hcount ▸ fits_count t m.issue, hcount⟩

theorem mem_filterMap_entry?_iff (h : net pre post = some t) {i : Issue} {n : Int} :
    (i, n) ∈ (compare pre post).filterMap Movement.entry? ↔ t.count i = n ∧ n ≠ 0 := by
  rw [List.mem_filterMap]
  constructor
  · rintro ⟨m, hm, hentry⟩
    have hissue : i = m.issue := Movement.issue_of_entry? hentry
    rw [Movement.entry?, net_of_mem_compare h hm, Option.bind_some] at hentry
    split at hentry
    · cases hentry
    · next hne =>
      cases hentry
      exact ⟨rfl, hne⟩
  · rintro ⟨rfl, hn⟩
    have hmoved : pre.count i ≠ 0 ∨ post.count i ≠ 0 := by
      rw [count_net h] at hn
      omega
    have hm : (⟨i, pre.count i, post.count i⟩ : Movement) ∈ compare pre post :=
      mem_compare_iff.2 ⟨rfl, rfl, hmoved⟩
    refine ⟨_, hm, ?_⟩
    rw [Movement.entry?, net_of_mem_compare h hm, Option.bind_some, if_neg hn]

/-- Lists that rise strictly by issue are equal if they have the same elements. -/
theorem eq_of_mem_iff {l l' : List (Issue × Int)} (hl : OrderedMap.Ordered ⟨l⟩)
    (hl' : OrderedMap.Ordered ⟨l'⟩) (h : ∀ i n, (i, n) ∈ l ↔ (i, n) ∈ l') : l = l' := by
  have hnodup : l.Nodup := List.Nodup.of_map _ (OrderedMap.nodup_keys hl)
  have hnodup' : l'.Nodup := List.Nodup.of_map _ (OrderedMap.nodup_keys hl')
  have hperm : l.Perm l' := (List.perm_ext_iff_of_nodup hnodup hnodup').2 fun (i, n) => h i n
  exact OrderedMap.eq_of_perm hl hl' hperm

/-- **A net stores the movements that are not zero**, in their order. -/
theorem entries_eq_filterMap_compare (h : net pre post = some t) :
    t.entries = (compare pre post).filterMap Movement.entry? := by
  refine eq_of_mem_iff t.canonical.ordered ?_ fun i n => ?_
  · refine List.Pairwise.filterMap _ (fun m m' hlt a ha b hb => ?_) (pairwise_compare pre post)
    rw [Movement.issue_of_entry? ha, Movement.issue_of_entry? hb]
    exact hlt
  · rw [mem_entries_iff, mem_filterMap_entry?_iff h]

/-- **The two differences of tallies tell the same.** The movements between two tallies are those of the
issues that either counts, each once and in order, with both counts. There is no net exactly if a count
before the change is the least machine integer or if some movement has no number. If there is a net, its
entries are the movements whose number is not zero, in order and with that number, and a movement is an
improvement exactly if the net counts it negative. -/
theorem compare_tells_net (pre post : Tally) :
    (compare pre post).Pairwise (fun m m' => Ord.compare m.issue m'.issue = .lt) ∧
    (∀ i, i ∈ (compare pre post).map Movement.issue ↔ i ∈ pre.issues ∨ i ∈ post.issues) ∧
    (∀ m ∈ compare pre post,
      m.pre = pre.count m.issue ∧ m.post = post.count m.issue ∧ (m.pre ≠ 0 ∨ m.post ≠ 0)) ∧
    (net pre post = none ↔
      (∃ i, pre.count i = -9223372036854775808) ∨ ∃ m ∈ compare pre post, m.net = none) ∧
    ∀ t, net pre post = some t →
      t.entries = (compare pre post).filterMap Movement.entry? ∧
      ∀ m ∈ compare pre post,
        m.net = some (t.count m.issue) ∧ (m.isImprovement = true ↔ t.count m.issue < 0) := by
  refine ⟨pairwise_compare pre post, fun i => ?_, fun m hm => mem_compare_iff.1 hm, ?_, fun t h => ?_⟩
  · have hid : (compare pre post).map Movement.issue = OrderedMap.distinct (pre.issues ++ post.issues) := by
      rw [compare, List.map_map]
      exact List.map_id _
    rw [hid, OrderedMap.mem_distinct, List.mem_append]
  · rw [net_eq_none_iff, exists_net_eq_none_iff]
  · refine ⟨entries_eq_filterMap_compare h, fun m hm => ⟨net_of_mem_compare h hm, ?_⟩⟩
    obtain ⟨hpre, hpost, -⟩ := mem_compare_iff.1 hm
    rw [Movement.isImprovement, decide_eq_true_iff, count_net h, hpre, hpost]
    omega

/-- One issue went away, one stayed, and one came: the net stores two of three movements. -/
theorem compare_tells_net_of_shift :
    ∃ pre post t : Tally,
      ofCounts [(⟨"a", "l", .error⟩, 2), (⟨"b", "l", .error⟩, 1)] = some pre ∧
      ofCounts [(⟨"b", "l", .error⟩, 1), (⟨"c", "l", .error⟩, 3)] = some post ∧
      net pre post = some t ∧ (compare pre post).length = 3 ∧
      t.entries = [(⟨"a", "l", .error⟩, -2), (⟨"c", "l", .error⟩, 3)] ∧
      (⟨⟨"a", "l", .error⟩, 2, 0⟩ : Movement).isImprovement = true := by
  obtain ⟨pre, hpre⟩ : ∃ t, ofCounts [(⟨"a", "l", .error⟩, 2), (⟨"b", "l", .error⟩, 1)] = some t := ⟨_, rfl⟩
  obtain ⟨post, hpost⟩ : ∃ t, ofCounts [(⟨"b", "l", .error⟩, 1), (⟨"c", "l", .error⟩, 3)] = some t := ⟨_, rfl⟩
  obtain ⟨t, ht⟩ : ∃ t, net pre post = some t := by
    cases hpre
    cases hpost
    exact ⟨_, rfl⟩
  obtain ⟨-, -, -, -, htells⟩ := compare_tells_net pre post
  obtain ⟨hentries, hmoved⟩ := htells t ht
  have hlisted : compare pre post = [⟨⟨"a", "l", .error⟩, 2, 0⟩, ⟨⟨"b", "l", .error⟩, 1, 1⟩,
      ⟨⟨"c", "l", .error⟩, 0, 3⟩] := by
    cases hpre
    cases hpost
    decide
  rw [hlisted] at hentries hmoved
  obtain ⟨hnet, himproved⟩ := hmoved _ List.mem_cons_self
  refine ⟨pre, post, t, hpre, hpost, ht, by rw [hlisted]; rfl, hentries, himproved.2 ?_⟩
  have hcount : some (-2) = some (t.count ⟨"a", "l", .error⟩) := hnet
  rw [← Option.some.inj hcount]
  decide

end Tally

end LintDelta
