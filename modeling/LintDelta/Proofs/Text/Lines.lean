import Mathlib.Data.List.TakeWhile
import LintDelta.Text.Blank

/-!
# Lines and fields

What it means that a text has certain lines (`Lined`), and a line two fields (`Row`), said by how they are put
together: lines by their endings, fields by the blanks around them. Taking a text apart finds exactly these
(`lined_iff`, `row_iff`). The same for trimming: what is left is the one text without blanks at its ends that has
nothing but blanks around it (`trims_iff`).

A separator separates what is before it from what is after it (`pieces_append_sep`). Carriage returns at the ends of
lines are blanks, so the lines that are left once they are trimmed do not depend on how they end (`rows_eq`), and
those of two texts with a line feed between them are those of the one and those of the other (`rows_append_newline`).
-/

namespace LintDelta.Text

/-! ## Pieces -/

section Pieces

variable {sep : Char → Bool}

theorem pieces_of_not_sep {l : List Char} (h : ∀ c ∈ l, sep c = false) : pieces sep l = [l] := by
  induction l with
  | nil => rfl
  | cons c l ih =>
    have hc : sep c = false := h c List.mem_cons_self
    have hl : pieces sep l = [l] := ih fun d hd => h d (List.mem_cons_of_mem c hd)
    simp [pieces, hc, hl]

/-- A separator separates what is before it from what is after it. -/
theorem pieces_append_sep {c : Char} (hc : sep c = true) (a b : List Char) :
    pieces sep (a ++ c :: b) = pieces sep a ++ pieces sep b := by
  induction a with
  | nil => simp [pieces, hc]
  | cons d a ih =>
    rw [List.cons_append, pieces, pieces, ih]
    by_cases hd : sep d = true
    · simp [hd]
    · cases h : pieces sep a with
      | nil => exact absurd h (pieces_ne_nil sep a)
      | cons p ps => simp [hd]

end Pieces

/-! ## Trimming -/

theorem toList_trim (s : String) : (trim s).toList = trimChars s.toList := String.toList_ofList

/-- Nothing but blanks. -/
def AllBlank (cs : List Char) : Prop := ∀ c ∈ cs, isBlank c = true

theorem AllBlank.head {cs : List Char} (h : AllBlank cs) (c : Char) (hc : cs.head? = some c) : isBlank c = true :=
  h c (List.mem_of_head? hc)

theorem trimChars_eq_nil_iff {cs : List Char} : trimChars cs = [] ↔ AllBlank cs := by
  constructor
  · intro h
    have hrest : ∀ c ∈ cs.dropWhile isBlank, isBlank c = true := by
      simpa [trimChars, List.dropWhile_eq_nil_iff] using h
    cases hd : cs.dropWhile isBlank with
    | nil => exact List.dropWhile_eq_nil_iff.1 hd
    | cons c rest =>
      have hblank : isBlank c = true := hrest c (by simp [hd])
      rw [head?_dropWhile_isBlank (by rw [hd]; rfl)] at hblank
      cases hblank
  · intro h
    exact trimChars_eq_nil_of_all (List.all_eq_true.2 h)

theorem trimChars_append_blank (l : List Char) {c : Char} (hc : isBlank c = true) :
    trimChars (l ++ [c]) = trimChars l := by
  by_cases hl : AllBlank l
  · have hlc : AllBlank (l ++ [c]) := by
      intro d hd
      rcases List.mem_append.1 hd with hd | hd
      · exact hl d hd
      · rwa [List.mem_singleton.1 hd]
    rw [trimChars_eq_nil_iff.2 hl, trimChars_eq_nil_iff.2 hlc]
  · have hne : l.dropWhile isBlank ≠ [] := fun hnil => hl (List.dropWhile_eq_nil_iff.1 hnil)
    simp [trimChars, List.dropWhile_append, hne, hc]

/-- Trimming takes blanks from both ends and nothing else. -/
theorem exists_eq_trimChars (l : List Char) :
    ∃ lead trail, AllBlank lead ∧ AllBlank trail ∧ l = lead ++ trimChars l ++ trail := by
  have hblank (cs : List Char) : AllBlank (cs.takeWhile isBlank) := fun c hc => List.mem_takeWhile_imp hc
  refine ⟨l.takeWhile isBlank, ((l.dropWhile isBlank).reverse.takeWhile isBlank).reverse, hblank l, ?_, ?_⟩
  · intro c hc
    exact hblank _ c (List.mem_reverse.1 hc)
  · rw [trimChars, List.append_assoc, ← List.reverse_append, List.takeWhile_append_dropWhile, List.reverse_reverse,
      List.takeWhile_append_dropWhile]

/-- No blank at either end. -/
structure Trimmed (cs : List Char) : Prop where
  head : ∀ c, cs.head? = some c → isBlank c = false
  last : ∀ c, cs.getLast? = some c → isBlank c = false

theorem trimmed_trimChars (cs : List Char) : Trimmed (trimChars cs) :=
  ⟨fun _ => not_isBlank_of_head?_trimChars, fun _ => not_isBlank_of_getLast?_trimChars⟩

theorem dropWhile_isBlank_of_head {cs : List Char} (h : ∀ c, cs.head? = some c → isBlank c = false) :
    cs.dropWhile isBlank = cs := by
  cases cs with
  | nil => rfl
  | cons c rest =>
    have hc : ¬ isBlank c = true := by simp [h c rfl]
    exact List.dropWhile_cons_of_neg hc

/-- There is nothing to trim from a trimmed text. -/
theorem Trimmed.trimChars_eq {cs : List Char} (h : Trimmed cs) : trimChars cs = cs := by
  have hlast : cs.reverse.dropWhile isBlank = cs.reverse := by
    apply dropWhile_isBlank_of_head
    rw [List.head?_reverse]
    exact h.last
  rw [trimChars, dropWhile_isBlank_of_head h.head, hlast, List.reverse_reverse]

/-- A text stays trimmed when none of its characters is turned into a blank. -/
theorem Trimmed.map {f : Char → Char} (hf : ∀ c, isBlank c = false → isBlank (f c) = false) {cs : List Char}
    (h : Trimmed cs) : Trimmed (cs.map f) := by
  constructor
  · intro c hc
    rw [List.head?_map] at hc
    obtain ⟨d, hd, rfl⟩ := Option.map_eq_some_iff.1 hc
    exact hf d (h.head d hd)
  · intro c hc
    rw [List.getLast?_map] at hc
    obtain ⟨d, hd, rfl⟩ := Option.map_eq_some_iff.1 hc
    exact hf d (h.last d hd)

/-- What is left of a text: there are only blanks before and after it, and none at its own ends. -/
inductive Trims : List Char → List Char → Prop where
  | intro {lead body trail : List Char} (hlead : AllBlank lead) (htrail : AllBlank trail) (hbody : Trimmed body) :
      Trims (lead ++ body ++ trail) body

theorem AllBlank.trimChars_append {lead : List Char} (h : AllBlank lead) (l : List Char) :
    trimChars (lead ++ l) = trimChars l := by
  rw [trimChars, List.dropWhile_append_of_pos h, trimChars]

theorem AllBlank.trimChars_append_right {trail : List Char} (h : AllBlank trail) (l : List Char) :
    trimChars (l ++ trail) = trimChars l := by
  -- each blank behind the text first joins it
  induction trail generalizing l with
  | nil => rw [List.append_nil]
  | cons c trail ih =>
    have hc : isBlank c = true := h c List.mem_cons_self
    have htrail : AllBlank trail := fun d hd => h d (List.mem_cons_of_mem c hd)
    calc trimChars (l ++ c :: trail) = trimChars ((l ++ [c]) ++ trail) := by rw [List.append_assoc]; rfl
      _ = trimChars (l ++ [c]) := ih htrail (l ++ [c])
      _ = trimChars l := trimChars_append_blank l hc

/-- **Trimming finds the one trimmed text** that has nothing but blanks around it. -/
theorem trims_iff {cs body : List Char} : Trims cs body ↔ body = trimChars cs := by
  constructor
  · rintro ⟨hlead, htrail, hbody⟩
    rw [htrail.trimChars_append_right, hlead.trimChars_append, hbody.trimChars_eq]
  · rintro rfl
    obtain ⟨lead, trail, hlead, htrail, hcs⟩ := exists_eq_trimChars cs
    have h : Trims (lead ++ trimChars cs ++ trail) (trimChars cs) := .intro hlead htrail (trimmed_trimChars cs)
    rwa [← hcs] at h

theorem trimChars_dropReturn (l : List Char) : trimChars (dropReturn l) = trimChars l := by
  unfold dropReturn
  split
  · next h =>
    obtain ⟨init, rfl⟩ := List.getLast?_eq_some_iff.1 h
    rw [List.dropLast_concat, trimChars_append_blank init (by decide)]
  · rfl

/-! ## Fields -/

/-- A stretch without a blank. -/
structure IsWord (cs : List Char) : Prop where
  ne_nil : cs ≠ []
  not_blank : ∀ c ∈ cs, isBlank c = false

theorem fields_append_blank {c : Char} (hc : isBlank c = true) (a b : List Char) :
    fields (a ++ c :: b) = fields a ++ fields b := by
  rw [fields, pieces_append_sep hc, List.filter_append, fields, fields]

theorem AllBlank.fields_append {lead : List Char} (h : AllBlank lead) (l : List Char) :
    fields (lead ++ l) = fields l := by
  induction lead with
  | nil => rfl
  | cons c lead ih =>
    have hc : isBlank c = true := h c List.mem_cons_self
    have hlead : fields (lead ++ l) = fields l := ih fun d hd => h d (List.mem_cons_of_mem c hd)
    exact (fields_append_blank hc [] _).trans hlead

theorem AllBlank.fields_eq {cs : List Char} (h : AllBlank cs) : fields cs = [] := by
  have := h.fields_append []
  rwa [List.append_nil] at this

theorem IsWord.fields_eq {cs : List Char} (h : IsWord cs) : fields cs = [cs] := by
  simp [fields, pieces_of_not_sep h.not_blank, h.ne_nil]

/-- A word that is followed by a blank, or by nothing, is the first field. -/
theorem IsWord.fields_append {word rest : List Char} (h : IsWord word)
    (hrest : ∀ c, rest.head? = some c → isBlank c = true) : fields (word ++ rest) = word :: fields rest := by
  cases rest with
  | nil =>
    rw [List.append_nil, h.fields_eq]
    rfl
  | cons c rest =>
    have hc : isBlank c = true := hrest c rfl
    rw [fields_append_blank hc, h.fields_eq]
    exact congrArg (word :: ·) (fields_append_blank hc [] rest).symm

theorem fields_trimChars (l : List Char) : fields (trimChars l) = fields l := by
  obtain ⟨lead, trail, hlead, htrail, hl⟩ := exists_eq_trimChars l
  have hend : fields (trimChars l ++ trail) = fields (trimChars l) := by
    cases trail with
    | nil => rw [List.append_nil]
    | cons c trail =>
      have hblank : AllBlank trail := fun d hd => htrail d (List.mem_cons_of_mem c hd)
      rw [fields_append_blank (htrail c List.mem_cons_self), hblank.fields_eq, List.append_nil]
  calc fields (trimChars l) = fields (lead ++ (trimChars l ++ trail)) := by rw [hlead.fields_append, hend]
    _ = fields l := by rw [← List.append_assoc, ← hl]

/-- A line is blank, or it has a first field. -/
theorem allBlank_or_exists_word (l : List Char) :
    AllBlank l ∨ ∃ lead word rest, l = lead ++ word ++ rest ∧ AllBlank lead ∧ IsWord word ∧
      ∀ c, rest.head? = some c → isBlank c = true := by
  induction l with
  | nil => exact Or.inl nofun
  | cons c l ih =>
    cases hc : isBlank c with
    | true =>
      rcases ih with hl | ⟨lead, word, rest, rfl, hlead, hword, hrest⟩
      · exact Or.inl (List.forall_mem_cons.2 ⟨hc, hl⟩)
      · exact Or.inr ⟨c :: lead, word, rest, rfl, List.forall_mem_cons.2 ⟨hc, hlead⟩, hword, hrest⟩
    | false =>
      refine Or.inr ⟨[], c :: l.takeWhile (!isBlank ·), l.dropWhile (!isBlank ·), ?_, nofun, ⟨nofun, ?_⟩, ?_⟩
      · rw [List.nil_append, List.cons_append, List.takeWhile_append_dropWhile]
      · refine List.forall_mem_cons.2 ⟨hc, fun d hd => ?_⟩
        simpa using List.mem_takeWhile_imp hd
      · intro d hd
        have := List.head?_dropWhile_not (!isBlank ·) l
        rw [hd] at this
        simpa using this

/-- A line of two fields: blanks stand between them, and may stand around them. -/
inductive Row : List Char → List Char → List Char → Prop
  | intro {lead first gap second trail : List Char} (hlead : AllBlank lead) (hfirst : IsWord first)
    (hgap : AllBlank gap) (hne : gap ≠ []) (hsecond : IsWord second) (htrail : AllBlank trail) :
    Row (lead ++ first ++ gap ++ second ++ trail) first second

/-- **Two fields** are what a row is made of. -/
theorem row_iff {l first second : List Char} : Row l first second ↔ fields l = [first, second] := by
  constructor
  · rintro ⟨hlead, hfirst, hgap, hne, hsecond, htrail⟩
    rename_i lead gap trail
    have hbehind : ∀ c, (gap ++ (second ++ trail)).head? = some c → isBlank c = true := by
      obtain ⟨d, ds, rfl⟩ := List.exists_cons_of_ne_nil hne
      exact fun c hc => hgap.head c hc
    simp only [List.append_assoc]
    rw [hlead.fields_append, hfirst.fields_append hbehind, hgap.fields_append, hsecond.fields_append htrail.head,
      htrail.fields_eq]
  · intro h
    rcases allBlank_or_exists_word l with hl | ⟨lead, first', rest, rfl, hlead, hfirst, hrest⟩
    · rw [hl.fields_eq] at h
      cases h
    rw [List.append_assoc, hlead.fields_append, hfirst.fields_append hrest, List.cons.injEq] at h
    obtain ⟨rfl, h⟩ := h
    rcases allBlank_or_exists_word rest with hblank | ⟨gap, second', trail, rfl, hgap, hsecond, htrail⟩
    · rw [hblank.fields_eq] at h
      cases h
    rw [List.append_assoc, hgap.fields_append, hsecond.fields_append htrail, List.cons.injEq] at h
    obtain ⟨rfl, h⟩ := h
    rcases allBlank_or_exists_word trail with hblank | ⟨_, _, _, rfl, hmore, hthird, hend⟩
    · have hne : gap ≠ [] := by
        rintro rfl
        obtain ⟨c, cs, rfl⟩ := List.exists_cons_of_ne_nil hsecond.ne_nil
        have hc := hrest c rfl
        rw [hsecond.not_blank c List.mem_cons_self] at hc
        cases hc
      simpa only [List.append_assoc] using Row.intro hlead hfirst hgap hne hsecond hblank
    · rw [List.append_assoc, hmore.fields_append, hthird.fields_append hend] at h
      cases h

theorem Row.not_allBlank {l first second : List Char} (h : Row l first second) : ¬ AllBlank l := by
  intro hblank
  have hfields := row_iff.1 h
  rw [hblank.fields_eq] at hfields
  cases hfields

/-! ## Lines -/

/-- The lines of a text, by how they end: with a line feed, with a carriage return and a line feed, or, the last
one, with the text. -/
inductive Lined : List Char → List (List Char) → Prop
  | nil : Lined [] []
  | last {l : List Char} (hne : l ≠ []) (h : '\n' ∉ l) : Lined l [l]
  | feed {l rest : List Char} {ls : List (List Char)} (h : '\n' ∉ l) (hreturn : l.getLast? ≠ some '\r')
    (hrest : Lined rest ls) : Lined (l ++ '\n' :: rest) (l :: ls)
  | returnFeed {l rest : List Char} {ls : List (List Char)} (h : '\n' ∉ l) (hrest : Lined rest ls) :
    Lined (l ++ '\r' :: '\n' :: rest) (l :: ls)

theorem pieces_of_not_mem {l : List Char} (h : '\n' ∉ l) : pieces (· == '\n') l = [l] := by
  refine pieces_of_not_sep fun c hc => ?_
  simp only [beq_eq_false_iff_ne]
  rintro rfl
  exact h hc

theorem lines_of_not_mem {l : List Char} (hne : l ≠ []) (h : '\n' ∉ l) : lines l = [l] := by
  simp [lines, pieces_of_not_mem h, hne]

theorem lines_append_newline {l : List Char} (h : '\n' ∉ l) (rest : List Char) :
    lines (l ++ '\n' :: rest) = dropReturn l :: lines rest := by
  have hpieces : pieces (· == '\n') (l ++ '\n' :: rest) = l :: pieces (· == '\n') rest := by
    rw [pieces_append_sep rfl, pieces_of_not_mem h, List.singleton_append]
  have hne : (pieces (· == '\n') rest).reverse ≠ [] := by
    simp [pieces_ne_nil]
  rw [lines, lines, hpieces, List.reverse_cons]
  cases hrest : (pieces (· == '\n') rest).reverse with
  | nil => exact absurd hrest hne
  | cons final earlier => simp

/-- The lines behind the beginning of a line, by induction on the text behind it. -/
theorem lined_lines {l : List Char} (h : '\n' ∉ l) (cs : List Char) : Lined (l ++ cs) (lines (l ++ cs)) := by
  induction cs generalizing l with
  | nil =>
    rw [List.append_nil]
    by_cases hne : l = []
    · rw [hne]
      exact .nil
    · rw [lines_of_not_mem hne h]
      exact .last hne h
  | cons c cs ih =>
    by_cases hc : c = '\n'
    · have hrest : Lined cs (lines cs) := ih (l := []) nofun
      rw [hc, lines_append_newline h]
      by_cases hreturn : l.getLast? = some '\r'
      · obtain ⟨init, rfl⟩ := List.getLast?_eq_some_iff.1 hreturn
        have hinit : '\n' ∉ init := fun hmem => h (List.mem_append_left _ hmem)
        simpa [dropReturn] using Lined.returnFeed hinit hrest
      · rw [dropReturn, if_neg hreturn]
        exact .feed h hreturn hrest
    · have hmem : '\n' ∉ l ++ [c] := by simp [h, Ne.symm hc]
      simpa using ih hmem

/-- **Lines are found by their endings.** -/
theorem lined_iff {cs : List Char} {ls : List (List Char)} : Lined cs ls ↔ lines cs = ls := by
  constructor
  · intro h
    induction h with
    | nil => rfl
    | last hne h => exact lines_of_not_mem hne h
    | feed h hreturn _ ih => rw [lines_append_newline h, ih, dropReturn, if_neg hreturn]
    | @returnFeed l rest ls h _ ih =>
      have hmem : '\n' ∉ l ++ ['\r'] := by simp [h]
      have hlines := lines_append_newline hmem rest
      rw [ih] at hlines
      simpa [dropReturn] using hlines
  · rintro rfl
    exact lined_lines (l := []) List.not_mem_nil cs

theorem Lined.length_le {cs : List Char} {ls : List (List Char)} (h : Lined cs ls) : ls.length ≤ cs.length := by
  induction h with
  | nil => exact Nat.le_refl 0
  | last hne _ => exact List.length_pos_iff.2 hne
  | feed _ _ _ ih =>
    simp only [List.length_cons, List.length_append]
    omega
  | returnFeed _ _ ih =>
    simp only [List.length_cons, List.length_append]
    omega

/-! ## Rows -/

/-- The trimmed lines of a text, less those that are blank. -/
def rows (cs : List Char) : List (List Char) :=
  ((lines cs).map trimChars).filter fun row => !row.isEmpty

/-- Trimmed lines do not show how they ended. -/
theorem rows_eq (cs : List Char) :
    rows cs = ((pieces (· == '\n') cs).map trimChars).filter fun row => !row.isEmpty := by
  rw [rows, lines]
  cases h : (pieces (· == '\n') cs).reverse with
  | nil => exact absurd (List.reverse_eq_nil_iff.1 h) (pieces_ne_nil _ cs)
  | cons final earlier =>
    have hpieces : pieces (· == '\n') cs = earlier.reverse ++ [final] := by
      rw [← List.reverse_reverse (pieces _ cs), h, List.reverse_cons]
    have hearlier : (earlier.map dropReturn).reverse.map trimChars = earlier.reverse.map trimChars := by
      simp [trimChars_dropReturn]
    rw [hpieces, List.map_append, List.map_append, hearlier, List.filter_append, List.filter_append]
    cases final with
    | nil => rfl
    | cons c rest => rfl

/-- **Nothing is lost, joined or split where two texts meet** in a line feed. -/
theorem rows_append_newline (s t : List Char) : rows (s ++ '\n' :: t) = rows s ++ rows t := by
  rw [rows_eq, pieces_append_sep rfl, List.map_append, List.filter_append, rows_eq, rows_eq]

end LintDelta.Text
