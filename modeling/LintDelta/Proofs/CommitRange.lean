import Mathlib.Data.List.Infix
import LintDelta.CommitRange

/-!
# The grammar of ranges

Which lists of words are ranges, and which revisions they name, said by how they are put together (`Names`): one
revision, two revisions with `..` between them, of which one may be missing, or two words. Splitting accepts exactly
these (`split_eq_ok_iff`).

What `..` separates is found by its first occurrence, which is the only one unless three dots stand in a row.
-/

namespace LintDelta.CommitRange

/-! ## Dots -/

/-- Two dots in a row. -/
def twoDots : List Char := ['.', '.']

/-- Three dots in a row. -/
def threeDots : List Char := ['.', '.', '.']

theorem hasThreeDots_iff {cs : List Char} : hasThreeDots cs = true ↔ threeDots <:+: cs := by
  fun_induction hasThreeDots cs with
  | case1 rest => simp [threeDots, List.infix_cons_iff]
  | case2 c rest hne ih =>
    have hstart : ¬ threeDots <+: c :: rest := by
      intro h
      obtain ⟨rfl, more, rfl⟩ := List.cons_prefix_cons.1 h
      exact hne _ rfl rfl
    rw [ih, List.infix_cons_iff, or_iff_right hstart]
  | case3 => simp [threeDots]

theorem twoDots_prefix_cons_iff {c : Char} {rest : List Char} :
    twoDots <+: c :: rest ↔ c = '.' ∧ rest.head? = some '.' := by
  cases rest with
  | nil => simp [twoDots]
  | cons d rest => simp [twoDots, eq_comm]

theorem not_prefix_of_ne {c : Char} {rest : List Char} (hne : ∀ more, c = '.' → rest = '.' :: more → False) :
    ¬ twoDots <+: c :: rest := by
  intro h
  obtain ⟨rfl, more, rfl⟩ := List.cons_prefix_cons.1 h
  exact hne more rfl rfl

theorem cutDots_eq_none_iff {cs : List Char} : cutDots cs = none ↔ ¬ twoDots <:+: cs := by
  fun_induction cutDots cs with
  | case1 rest => simp [twoDots, List.infix_cons_iff]
  | case2 c rest hne ih => rw [Option.map_eq_none_iff, ih, List.infix_cons_iff, or_iff_right (not_prefix_of_ne hne)]
  | case3 => simp [twoDots]

theorem cutDots_cons {c : Char} {rest : List Char} (h : ¬ twoDots <+: c :: rest) :
    cutDots (c :: rest) = (cutDots rest).map fun (before, after) => (c :: before, after) := by
  rw [cutDots]
  rintro more rfl rfl
  exact h ⟨more, rfl⟩

/-- What comes before the first two dots, and what comes behind them. -/
theorem cutDots_append {before after : List Char} (h : ¬ twoDots <:+: before ++ ['.']) :
    cutDots (before ++ '.' :: '.' :: after) = some (before, after) := by
  induction before with
  | nil => rfl
  | cons c before ih =>
    rw [List.cons_append, List.infix_cons_iff, not_or, twoDots_prefix_cons_iff] at h
    obtain ⟨hstart, hbefore⟩ := h
    -- the character behind `c` is the same with `after` as without it
    have hcons : ¬ twoDots <+: c :: (before ++ '.' :: '.' :: after) := by
      rw [twoDots_prefix_cons_iff]
      cases before with
      | nil => exact hstart
      | cons d before => exact hstart
    rw [List.cons_append, cutDots_cons hcons, ih hbefore]
    rfl

theorem eq_of_cutDots {cs before after : List Char} (h : cutDots cs = some (before, after)) :
    cs = before ++ '.' :: '.' :: after ∧ ¬ twoDots <:+: before := by
  fun_induction cutDots cs generalizing before with
  | case1 rest =>
    cases h
    exact ⟨rfl, by simp [twoDots]⟩
  | case2 c rest hne ih =>
    obtain ⟨⟨before', after'⟩, hcut, heq⟩ := Option.map_eq_some_iff.1 h
    cases heq
    obtain ⟨hrest, hfree⟩ := ih hcut
    refine ⟨by rw [hrest, List.cons_append], ?_⟩
    rw [List.infix_cons_iff, not_or, twoDots_prefix_cons_iff]
    refine ⟨?_, hfree⟩
    rintro ⟨hc, hhead⟩
    obtain ⟨more, rfl⟩ := List.head?_eq_some_iff.1 hhead
    exact hne _ hc hrest
  | case3 => cases h

theorem hasDots_eq_false_iff {cs : List Char} : hasDots cs = false ↔ ¬ twoDots <:+: cs := by
  rw [hasDots, Option.isSome_eq_false_iff, Option.isNone_iff_eq_none, cutDots_eq_none_iff]

theorem twoDots_infix_concat_iff {cs : List Char} :
    twoDots <:+: cs ++ ['.'] ↔ twoDots <:+: cs ∨ cs.getLast? = some '.' := by
  have hlast : twoDots <:+ cs ++ ['.'] ↔ cs.getLast? = some '.' := by
    rw [List.getLast?_eq_some_iff]
    constructor
    · rintro ⟨front, h⟩
      have hfront : front ++ ['.'] ++ ['.'] = cs ++ ['.'] := by simpa [twoDots] using h
      exact ⟨front, (List.append_cancel_right hfront).symm⟩
    · rintro ⟨front, rfl⟩
      exact ⟨front, by simp [twoDots]⟩
  rw [List.infix_concat_iff, hlast, or_comm]

/-- Where two texts without two dots in a row meet in two dots, there are three in a row exactly if the first one ends
with a dot or the second one starts with one. -/
theorem threeDots_infix_iff {f t : List Char} (hf : ¬ twoDots <:+: f) (ht : ¬ twoDots <:+: t) :
    threeDots <:+: f ++ '.' :: '.' :: t ↔ f.getLast? = some '.' ∨ t.head? = some '.' := by
  constructor
  · intro h
    -- the three dots start before the two, with the first of them, with the second, or behind them
    induction f with
    | nil =>
      simp only [List.nil_append, List.infix_cons_iff] at h
      rcases h with h | h | h
      · obtain ⟨rest, rfl⟩ : ['.'] <+: t := by simpa [threeDots] using h
        exact Or.inr rfl
      · have hstart : twoDots <+: t := by simpa [threeDots, twoDots] using h
        exact absurd hstart.isInfix ht
      · exact absurd (List.IsInfix.trans (by decide) h) ht
    | cons c f ih =>
      rw [List.infix_cons_iff, not_or, twoDots_prefix_cons_iff] at hf
      rw [List.cons_append, List.infix_cons_iff] at h
      rcases h with h | h
      · obtain ⟨rfl, hrest⟩ := List.cons_prefix_cons.1 h
        cases f with
        | nil => exact Or.inl rfl
        | cons d f =>
          obtain ⟨rfl, -⟩ := List.cons_prefix_cons.1 hrest
          exact absurd ⟨rfl, rfl⟩ hf.1
      · rcases ih hf.2 h with hlast | hhead
        · exact Or.inl (by simp [List.getLast?_cons, hlast])
        · exact Or.inr hhead
  · rintro (h | h)
    · obtain ⟨front, rfl⟩ := List.getLast?_eq_some_iff.1 h
      exact ⟨front, t, by simp [threeDots]⟩
    · obtain ⟨rest, rfl⟩ := List.head?_eq_some_iff.1 h
      exact ⟨f, rest, by simp [threeDots]⟩

/-! ## Ranges -/

/-- A text without two dots in a row. -/
def Plain (s : String) : Prop := ¬ twoDots <:+: s.toList

/-- What a side of `..` names, where none stands for the latest commit. -/
def revision (s : String) : String := if s = "" then "HEAD" else s

/-- The words that name a range, with its two revisions. -/
inductive Names : List String → String × String → Prop
  | one {s : String} (hne : s ≠ "") (h : Plain s) : Names [s] (s, "HEAD")
  | span {a b : String} (hthree : ¬ threeDots <:+: (a ++ ".." ++ b).toList) (ha : Plain a) (hb : Plain b)
    (hne : ¬ (a = "" ∧ b = "")) : Names [a ++ ".." ++ b] (revision a, revision b)
  | two {a b : String} (ha : a ≠ "") (hb : b ≠ "") (ha' : Plain a) (hb' : Plain b) : Names [a, b] (a, b)

theorem toList_span (a b : String) : (a ++ ".." ++ b).toList = a.toList ++ '.' :: '.' :: b.toList := by
  simp

theorem side_toList (s : String) : side s.toList = revision s := by
  simp [side, revision, head]

/-- Where two plain texts meet in two dots and not in three, these are the first two. -/
theorem cutDots_span {a b : String} (hthree : ¬ threeDots <:+: (a ++ ".." ++ b).toList) (ha : Plain a) (hb : Plain b) :
    cutDots (a ++ ".." ++ b).toList = some (a.toList, b.toList) := by
  rw [toList_span] at hthree ⊢
  rw [threeDots_infix_iff ha hb, not_or] at hthree
  refine cutDots_append fun h => ?_
  rcases twoDots_infix_concat_iff.1 h with h | h
  · exact ha h
  · exact hthree.1 h

theorem split_of_names {range : List String} {p : String × String} (h : Names range p) : split range = .ok p := by
  cases h with
  | @one s hne h =>
    have hthree : hasThreeDots s.toList = false := by
      rw [← Bool.not_eq_true, hasThreeDots_iff]
      exact fun hmem => h (List.IsInfix.trans (by decide) hmem)
    simp [split, hthree, cutDots_eq_none_iff.2 h, hne, head]
  | @span a b hthree ha hb hne =>
    have hnot : hasThreeDots (a ++ ".." ++ b).toList = false := by
      rwa [← Bool.not_eq_true, hasThreeDots_iff]
    have hempty : (a.toList.isEmpty && b.toList.isEmpty) = false := by
      simpa using hne
    simp only [split, hnot, cutDots_span hthree ha hb, hasDots_eq_false_iff.2 hb, hempty, side_toList]
    rfl
  | two ha hb ha' hb' =>
    simp [split, ha, hb, hasDots_eq_false_iff.2 ha', hasDots_eq_false_iff.2 hb']

theorem names_of_split {range : List String} {p : String × String} (h : split range = .ok p) : Names range p := by
  unfold split at h
  split at h
  · next s =>
    dsimp only at h
    split at h
    · cases h
    · next hthree =>
      rw [hasThreeDots_iff] at hthree
      split at h
      · next before after hcut =>
        obtain ⟨hs, hbefore⟩ := eq_of_cutDots hcut
        split at h
        · cases h
        · next hsides =>
          cases h
          obtain ⟨a, rfl⟩ : ∃ a : String, a.toList = before := ⟨String.ofList before, String.toList_ofList⟩
          obtain ⟨b, rfl⟩ : ∃ b : String, b.toList = after := ⟨String.ofList after, String.toList_ofList⟩
          obtain rfl : s = a ++ ".." ++ b := String.toList_inj.1 (hs.trans (toList_span a b).symm)
          simp only [Bool.or_eq_true, not_or, Bool.not_eq_true, hasDots_eq_false_iff] at hsides
          rw [side_toList, side_toList]
          exact .span hthree hbefore hsides.2 (by simpa using hsides.1)
      · next hcut =>
        split at h
        · cases h
        · next hne =>
          cases h
          exact .one (by simpa using hne) (cutDots_eq_none_iff.1 hcut)
  · next a b =>
    split at h
    · cases h
    · next hsides =>
      cases h
      simp only [Bool.or_eq_true, not_or, Bool.not_eq_true, hasDots_eq_false_iff] at hsides
      obtain ⟨⟨⟨ha, hb⟩, ha'⟩, hb'⟩ := hsides
      exact .two (by simpa using ha) (by simpa using hb) ha' hb'
  · cases h

theorem split_eq_ok_iff {range : List String} {p : String × String} : split range = .ok p ↔ Names range p :=
  ⟨names_of_split, split_of_names⟩

/-- What is no range is refused. -/
theorem split_of_not_names {range : List String} (h : ∀ p, ¬ Names range p) : split range = .error (invalid range) := by
  cases hsplit : split range with
  | ok p => exact absurd (names_of_split hsplit) (h p)
  | error e =>
    unfold split at hsplit
    split at hsplit
    · dsimp only at hsplit
      repeat' split at hsplit
      all_goals cases hsplit
      all_goals rfl
    · split at hsplit
      · cases hsplit
        rfl
      · cases hsplit
    · cases hsplit
      rfl

/-! ## The revisions that are named -/

theorem revision_ne_empty (s : String) : revision s ≠ "" := by
  unfold revision
  split
  · decide
  · assumption

theorem plain_revision {s : String} (h : Plain s) : Plain (revision s) := by
  unfold revision
  split
  · unfold Plain
    decide
  · exact h

/-- Revisions are never missing, and they hold no two dots in a row. -/
theorem Names.sides {range : List String} {f t : String} (h : Names range (f, t)) :
    f ≠ "" ∧ t ≠ "" ∧ Plain f ∧ Plain t := by
  cases h with
  | one hne h => exact ⟨hne, revision_ne_empty "", h, plain_revision (s := "") (by unfold Plain; decide)⟩
  | span _ ha hb _ => exact ⟨revision_ne_empty _, revision_ne_empty _, plain_revision ha, plain_revision hb⟩
  | two ha hb ha' hb' => exact ⟨ha, hb, ha', hb'⟩

theorem Names.not_threeDots {s : String} {p : String × String} (h : Names [s] p) : ¬ threeDots <:+: s.toList := by
  cases h with
  | one _ h => exact fun hmem => h (List.IsInfix.trans (by decide) hmem)
  | span hthree => exact hthree

/-- Two revisions are named by the two dots between them, unless a third one comes up to these. -/
theorem names_span {f t : String} (hf : f ≠ "") (ht : t ≠ "") (hf' : Plain f) (ht' : Plain t)
    (hlast : f.toList.getLast? ≠ some '.') (hhead : t.toList.head? ≠ some '.') : Names [f ++ ".." ++ t] (f, t) := by
  have hthree : ¬ threeDots <:+: (f ++ ".." ++ t).toList := by
    rw [toList_span, threeDots_infix_iff hf' ht', not_or]
    exact ⟨hlast, hhead⟩
  have hspan := Names.span hthree hf' ht' fun h => hf h.1
  rwa [revision, if_neg hf, revision, if_neg ht] at hspan

theorem not_names_span {f t : String} (hf : Plain f) (ht : Plain t)
    (h : f.toList.getLast? = some '.' ∨ t.toList.head? = some '.') (p : String × String) :
    ¬ Names [f ++ ".." ++ t] p := by
  intro hnames
  refine hnames.not_threeDots ?_
  rw [toList_span, threeDots_infix_iff hf ht]
  exact h

/-- **Which words are a range, and what they name.** Splitting accepts exactly the ranges of the grammar, and all else
is an error of configuration. The revisions that it answers are not empty and hold no `..`, so they name themselves as
two words; and with `..` between them as one word, unless that puts three dots in a row. -/
theorem split_by_grammar (range : List String) :
    (∀ p, split range = .ok p ↔ Names range p) ∧
    ((∀ p, ¬ Names range p) → ∃ message, split range = .error (.configuration message)) ∧
    ∀ f t, split range = .ok (f, t) →
      f ≠ "" ∧ t ≠ "" ∧ Plain f ∧ Plain t ∧ split [f, t] = .ok (f, t) ∧
      (f.toList.getLast? ≠ some '.' → t.toList.head? ≠ some '.' → split [f ++ ".." ++ t] = .ok (f, t)) ∧
      (f.toList.getLast? = some '.' ∨ t.toList.head? = some '.' →
        ∃ message, split [f ++ ".." ++ t] = .error (.configuration message)) := by
  refine ⟨fun p => split_eq_ok_iff, fun h => ⟨_, split_of_not_names h⟩, fun f t h => ?_⟩
  obtain ⟨hf, ht, hf', ht'⟩ := (names_of_split h).sides
  refine ⟨hf, ht, hf', ht', split_of_names (.two hf ht hf' ht'), fun hlast hhead => ?_, fun hdot => ?_⟩
  · exact split_of_names (names_span hf ht hf' ht' hlast hhead)
  · exact ⟨_, split_of_not_names (not_names_span hf' ht' hdot)⟩

/-- A revision may end with a dot, and then it can be given as a word of its own only. -/
theorem split_by_grammar_of_dotted :
    split ["v1.", "main"] = .ok ("v1.", "main") ∧ split ["main" ++ ".." ++ "HEAD"] = .ok ("main", "HEAD") ∧
    (∃ message, split ["v1." ++ ".." ++ "main"] = .error (.configuration message)) ∧
    ∃ message, split ["a..b..c"] = .error (.configuration message) := by
  obtain ⟨-, -, hwords⟩ := split_by_grammar ["v1.", "main"]
  obtain ⟨-, -, hopen⟩ := split_by_grammar ["main.."]
  obtain ⟨hnames, hrefused, -⟩ := split_by_grammar ["a..b..c"]
  obtain ⟨-, -, -, -, htwo, -, hdotted⟩ := hwords "v1." "main" rfl
  obtain ⟨-, -, -, -, -, hone, -⟩ := hopen "main" "HEAD" rfl
  refine ⟨htwo, hone (by decide) (by decide), hdotted (Or.inl rfl), hrefused fun p h => ?_⟩
  cases (hnames p).2 h

end LintDelta.CommitRange
