import LintDelta.Proofs.Json.Documents
import LintDelta.Proofs.Json.Reading

/-!
# Passing over documents

A document that nobody reads is passed over from its first character to its last, however deep it is and whatever its
texts and numbers hold (`skipValue_of_spells`). The reader that does this keeps a stack and counts its steps, so what
is proved of a stretch of text is from where to where it takes the reader and in how many steps (`Moves`); stretches
are put together by `Moves.trans`, and a document takes less than two steps a character (`Passed`).
-/

namespace LintDelta.Json

/-- Where a reader stands that passes over a document. -/
abbrev Place := Expecting × List Bracket × List Char

/-- So many steps lead from one place to another. -/
def Moves (n : Nat) (p q : Place) : Prop :=
  ∀ k, skipOpen (n + k) p.1 p.2.1 p.2.2 = skipOpen k q.1 q.2.1 q.2.2

theorem Moves.trans {n m : Nat} {p q r : Place} (h : Moves n p q) (h' : Moves m q r) : Moves (n + m) p r := by
  intro k
  rw [Nat.add_assoc, h, h']

/-! ## Single steps -/

/-- What is expected in front of the first part of a list or an object, or in front of another one. -/
def Expecting.before : Bool → Expecting
  | true => .content
  | false => .separator

section Steps

variable {bracket : Bracket} {stack : List Bracket} {gap cs more rest : List Char} {first : Bool}

/-- The step in front of a value. -/
theorem skipOpen_value (k : Nat) (stack : List Bracket) (cs : List Char) :
    skipOpen (k + 1) .value stack cs = (do
      match ← skipStart cs with
      | (some bracket, rest) => skipOpen k .content (bracket :: stack) rest
      | (none, rest) => skipOpen k .separator stack rest) :=
  rfl

theorem moves_of_scalar (h : skipStart cs = .ok (none, rest)) : Moves 1 (.value, stack, cs) (.separator, stack, rest) := by
  intro k
  rw [Nat.add_comm, skipOpen_value, h]
  rfl

theorem moves_of_opening (h : skipStart cs = .ok (some bracket, rest)) :
    Moves 1 (.value, stack, cs) (.content, bracket :: stack, rest) := by
  intro k
  rw [Nat.add_comm, skipOpen_value, h]
  rfl

def Bracket.closer : Bracket → Char
  | .list => ']'
  | .object => '}'

/-- The step in front of a part or of the closing bracket. -/
theorem skipOpen_before (k : Nat) (first : Bool) (bracket : Bracket) (stack : List Bracket) (cs : List Char) :
    skipOpen (k + 1) (.before first) (bracket :: stack) cs =
      (match bracket, skipSpace cs with
      | _, [] => .error bracket.ending
      | .list, ']' :: rest => skipOpen k .separator stack rest
      | .object, '}' :: rest => skipOpen k .separator stack rest
      | _, rest => do
        let rest ← match Expecting.before first, rest with
          | .separator, ',' :: rest => pure rest
          | .separator, _ => throw bracket.separator
          | _, rest => pure rest
        let rest ← if bracket = .object then skipName rest else pure rest
        skipOpen k .value (bracket :: stack) rest) := by
  cases first <;> rfl

theorem moves_close (hgap : Blank gap) (first : Bool) :
    Moves 1 (.before first, bracket :: stack, gap ++ bracket.closer :: rest) (.separator, stack, rest) := by
  intro k
  have hspace : skipSpace (gap ++ bracket.closer :: rest) = bracket.closer :: rest := by
    rw [skipSpace_append hgap, skipSpace_cons (by cases bracket <;> decide)]
  rw [Nat.add_comm, skipOpen_before, hspace]
  cases bracket <;> rfl

/-- A part starts at once behind the opening bracket, and behind a comma elsewhere. In an object a name follows. -/
theorem moves_part {c : Char} {part : List Char} (hspace : skipSpace cs = c :: part) (hlist : c ≠ ']') (hobject : c ≠ '}')
    (hpart : first = true ∧ more = c :: part ∨ first = false ∧ c = ',' ∧ more = part)
    (hname : bracket = .list ∧ rest = more ∨ bracket = .object ∧ skipName more = .ok rest) :
    Moves 1 (.before first, bracket :: stack, cs) (.value, bracket :: stack, rest) := by
  intro k
  rw [Nat.add_comm, skipOpen_before, hspace]
  rcases hpart with ⟨rfl, rfl⟩ | ⟨rfl, rfl, rfl⟩ <;> rcases hname with ⟨rfl, rfl⟩ | ⟨rfl, hskip⟩
  · simp [hlist, Expecting.before]
  · simp [hobject, hskip, Expecting.before, bind, Except.bind, pure, Except.pure]
  · rfl
  · simp [hskip, Expecting.before, bind, Except.bind, pure, Except.pure]

/-- What stands in front of an item is passed over, up to white space. -/
theorem exists_moves_item {sep : List Char} (hsep : Separator first sep) {x : Doc} {c : Char} (hc : x.starts c)
    (stack : List Bracket) (cs : List Char) :
    ∃ gap, Blank gap ∧
      Moves 1 (.before first, .list :: stack, sep ++ c :: cs) (.value, .list :: stack, gap ++ c :: cs) := by
  cases hsep with
  | first hgap =>
    have hspace : skipSpace (sep ++ c :: cs) = c :: cs := by
      rw [skipSpace_append hgap, skipSpace_cons (Doc.isSpace_of_starts hc)]
    exact ⟨[], blank_nil, moves_part hspace (Doc.starts_ne hc (by decide)) (Doc.starts_ne hc (by decide))
      (.inl ⟨rfl, rfl⟩) (.inl ⟨rfl, rfl⟩)⟩
  | @comma gap gap' hgap hgap' =>
    have hspace : skipSpace (gap ++ ',' :: (gap' ++ c :: cs)) = ',' :: (gap' ++ c :: cs) := by
      rw [skipSpace_append hgap, skipSpace_cons (by decide)]
    rw [List.append_assoc, List.cons_append]
    exact ⟨gap', hgap', moves_part hspace (by decide) (by decide) (.inr ⟨rfl, rfl, rfl⟩) (.inl ⟨rfl, rfl⟩)⟩

theorem skipName_append {name : Option String} {quoted gap' : List Char} (hgap : Blank gap) (hname : Quoted name quoted)
    (hgap' : Blank gap') (rest : List Char) : skipName (gap ++ (quoted ++ (gap' ++ ':' :: rest))) = .ok rest := by
  obtain ⟨hbody⟩ := hname
  rename_i v body
  have hspace : skipSpace (gap' ++ ':' :: rest) = ':' :: rest := by
    rw [skipSpace_append hgap', skipSpace_cons (by decide)]
  rw [skipName, skipSpace_append hgap, List.cons_append, skipSpace_cons (by decide)]
  simp [skipText_of_decodes hbody, hspace, bind, Except.bind, pure, Except.pure]

/-- What stands in front of the value of a member is passed over, with its name. -/
theorem moves_member {sep quoted : List Char} {name : Option String} (hsep : Separator first sep)
    (hname : Quoted name quoted) (hgap : Blank gap) (stack : List Bracket) (cs : List Char) :
    Moves 1 (.before first, .object :: stack, sep ++ (quoted ++ (gap ++ ':' :: cs))) (.value, .object :: stack, cs) := by
  cases hsep with
  | first hsep =>
    have hskip := skipName_append blank_nil hname hgap cs
    obtain ⟨hbody⟩ := hname
    have hspace (more : List Char) : skipSpace (sep ++ '"' :: more) = '"' :: more := by
      rw [skipSpace_append hsep, skipSpace_cons (by decide)]
    exact moves_part (hspace _) (by decide) (by decide) (.inl ⟨rfl, rfl⟩) (.inr ⟨rfl, hskip⟩)
  | @comma gap₁ gap₂ hgap₁ hgap₂ =>
    have hskip := skipName_append hgap₂ hname hgap cs
    have hspace (more : List Char) : skipSpace (gap₁ ++ ',' :: more) = ',' :: more := by
      rw [skipSpace_append hgap₁, skipSpace_cons (by decide)]
    rw [List.append_assoc, List.cons_append]
    exact moves_part (hspace _) (by decide) (by decide) (.inr ⟨rfl, rfl, rfl⟩) (.inr ⟨rfl, hskip⟩)

theorem skipStart_append {gap : List Char} (h : Blank gap) (cs : List Char) : skipStart (gap ++ cs) = skipStart cs := by
  rw [skipStart, skipStart, skipSpace_append h]

theorem skipStart_of_magnitude (h : Magnitude cs) (hrest : AfterValue rest) :
    skipStart (cs ++ rest) = .ok (none, rest) := by
  have hskip := skipMagnitude_append h hrest
  obtain ⟨d, ds, rfl, hd⟩ := h.exists_cons
  have hne {c : Char} (hc : isDigit c = false) : d ≠ c := by
    rintro rfl
    rw [hd] at hc
    cases hc
  rw [List.cons_append] at hskip ⊢
  rw [skipStart, skipSpace_cons (isSpace_of_numeral (Or.inr hd))]
  split
  case h_1 heq => cases heq
  case h_9 heq =>
    cases heq
    simp only [if_pos hd, hskip, bind, Except.bind, pure, Except.pure]
  all_goals
    next heq => exact absurd (List.cons.inj heq).1 (hne (by decide))

end Steps

/-! ## Whole documents -/

/-- A text is passed over in less than two steps a character. -/
def Passed (text : List Char) : Prop :=
  ∃ n, n < 2 * text.length ∧ ∀ gap stack rest, Blank gap → AfterValue rest →
    Moves n (.value, stack, gap ++ (text ++ rest)) (.separator, stack, rest)

theorem passed_of_scalar {text : List Char} (hne : text ≠ [])
    (h : ∀ rest, AfterValue rest → skipStart (text ++ rest) = .ok (none, rest)) : Passed text := by
  have hlength := List.length_pos_of_ne_nil hne
  refine ⟨1, by omega, fun gap stack rest hgap hrest => moves_of_scalar ?_⟩
  rw [skipStart_append hgap, h rest hrest]

/-- The items of a list are passed over if each is, by induction on the spelling. -/
theorem exists_moves_items {first : Bool} {xs : List Doc} {cs : List Char} (hcs : Items Doc.Spells first xs cs)
    (hxs : ∀ x ∈ xs, ∀ text, x.Spells text → Passed text) :
    ∃ n, n < 2 * cs.length ∧ ∀ stack rest, Moves n (.before first, .list :: stack, cs ++ rest) (.separator, stack, rest) := by
  induction hcs with
  | @close first gap hgap =>
    refine ⟨1, by simp only [List.length_append, List.length_singleton]; omega, fun stack rest => ?_⟩
    rw [List.append_assoc]
    exact moves_close hgap first
  | @item first sep text more x xs hsep hx hmore ih =>
    obtain ⟨n, hn, hpass⟩ := hxs x List.mem_cons_self text hx
    obtain ⟨m, hm, hmoves⟩ := ih fun y hy => hxs y (List.mem_cons_of_mem x hy)
    refine ⟨1 + n + m, by simp only [List.length_append]; omega, fun stack rest => ?_⟩
    obtain ⟨c, text', rfl, hc⟩ := hx.exists_cons
    obtain ⟨gap, hgap, hstep⟩ := exists_moves_item hsep hc stack (text' ++ (more ++ rest))
    have hitem := hpass gap (.list :: stack) (more ++ rest) hgap (hmore.afterValue rest)
    rw [List.append_assoc, List.append_assoc, List.cons_append]
    exact (hstep.trans hitem).trans (hmoves stack rest)

theorem Doc.Members.afterValue {R : Doc → List Char → Prop} {ms : List (Option String × Doc)} {cs : List Char}
    (h : Doc.Members R false ms cs) (rest : List Char) : AfterValue (cs ++ rest) := by
  cases h with
  | close h =>
    rw [List.append_assoc]
    exact afterValue_append h (Or.inr (Or.inr rfl)) _
  | member hsep =>
    cases hsep with
    | comma h h' =>
      rw [List.append_assoc, List.append_assoc]
      exact afterValue_append h (Or.inl rfl) _

/-- The members of an object are passed over if each value is. -/
theorem exists_moves_members {first : Bool} {ms : List (Option String × Doc)} {cs : List Char}
    (hcs : Doc.Members Doc.Spells first ms cs) (hms : ∀ m ∈ ms, ∀ text, m.2.Spells text → Passed text) :
    ∃ n, n < 2 * cs.length ∧
      ∀ stack rest, Moves n (.before first, .object :: stack, cs ++ rest) (.separator, stack, rest) := by
  induction hcs with
  | @close first gap hgap =>
    refine ⟨1, by simp only [List.length_append, List.length_singleton]; omega, fun stack rest => ?_⟩
    rw [List.append_assoc]
    exact moves_close hgap first
  | @member first sep quoted gap gap' text more name x ms hsep hname hgap hgap' hx hmore ih =>
    obtain ⟨n, hn, hpass⟩ := hms (name, x) List.mem_cons_self text hx
    obtain ⟨m, hm, hmoves⟩ := ih fun m' hm' => hms m' (List.mem_cons_of_mem _ hm')
    refine ⟨1 + n + m, by simp only [List.length_append, List.length_cons]; omega, fun stack rest => ?_⟩
    have hstep := moves_member hsep hname hgap stack (gap' ++ (text ++ (more ++ rest)))
    have hitem := hpass gap' (.object :: stack) (more ++ rest) hgap' (hmore.afterValue rest)
    simp only [List.append_assoc, List.cons_append]
    exact (hstep.trans hitem).trans (hmoves stack rest)

/-- **Every document is passed over**, by induction on the document. -/
theorem passed_of_spells {x : Doc} {text : List Char} (h : x.Spells text) : Passed text := by
  induction x generalizing text with
  | null =>
    cases h
    exact passed_of_scalar (List.cons_ne_nil _ _) fun rest _ => rfl
  | scalar =>
    refine passed_of_scalar (fun hnil => ?_) fun rest hrest => ?_
    · obtain ⟨c, cs, rfl, -⟩ := h.exists_cons
      cases hnil
    · cases h with
      | yes => rfl
      | no => rfl
      | number h => exact skipStart_of_magnitude h hrest
      | negative h =>
        have hstart (more : List Char) : skipStart ('-' :: more) = (do return (none, ← skipMagnitude more)) := rfl
        rw [List.cons_append, hstart, skipMagnitude_append h hrest]
        rfl
  | text s =>
    cases h with
    | text h =>
    cases h with
    | mk hbody =>
    refine passed_of_scalar (List.cons_ne_nil _ _) fun rest _ => ?_
    have hstart (more : List Char) : skipStart ('"' :: more) = (do return (none, ← skipText more)) := rfl
    rw [List.cons_append, List.append_assoc, List.singleton_append, hstart, skipText_of_decodes hbody]
    rfl
  | list xs ih =>
    cases h with
    | list hcs =>
    obtain ⟨n, hn, hmoves⟩ := exists_moves_items hcs fun x hx text => ih x hx
    refine ⟨1 + n, by rw [List.length_cons]; omega, fun gap stack rest hgap _ => ?_⟩
    refine Moves.trans (moves_of_opening ?_) (hmoves stack rest)
    rw [skipStart_append hgap]
    rfl
  | object ms ih =>
    cases h with
    | object hcs =>
    obtain ⟨n, hn, hmoves⟩ := exists_moves_members hcs fun m hm text => ih m hm
    refine ⟨1 + n, by rw [List.length_cons]; omega, fun gap stack rest hgap _ => ?_⟩
    refine Moves.trans (moves_of_opening ?_) (hmoves stack rest)
    rw [skipStart_append hgap]
    rfl

/-- **A document that nobody reads is passed over** as a whole. -/
theorem skipValue_of_spells {x : Doc} {gap text rest : List Char} (h : x.Spells text) (hgap : Blank gap)
    (hrest : AfterValue rest) : skipValue (gap ++ (text ++ rest)) = .ok rest := by
  obtain ⟨n, hn, hmoves⟩ := passed_of_spells h
  have hlength : (gap ++ (text ++ rest)).length = gap.length + (text.length + rest.length) := by
    rw [List.length_append, List.length_append]
  obtain ⟨k, hk⟩ : ∃ k, 2 * (gap ++ (text ++ rest)).length + 2 = n + (k + 1) :=
    ⟨2 * (gap ++ (text ++ rest)).length + 1 - n, by omega⟩
  rw [skipValue, hk, hmoves gap [] rest hgap hrest]
  rfl

end LintDelta.Json
