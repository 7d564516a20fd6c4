import Mathlib.Data.List.Forall2
import LintDelta.Json.Layout
import LintDelta.Proofs.Json.Notation

/-!
# Reading what is spelled

A reader reads a value as something (`Reads`) if it delivers that from every spelling of the value, whatever white
space stands in it, and leaves what stands behind it. The loops over lists and objects read them as their items and
members are read (`items_reads`, `members_reads`), so a reader of any shape has to be looked at for its own step
only. The reader of all values reads every value as itself (`reads_anyValue`).
-/

namespace LintDelta.Json

variable {α σ : Type}

/-! ## White space and marks -/

theorem skipSpace_append {gap : List Char} (h : Blank gap) (cs : List Char) : skipSpace (gap ++ cs) = skipSpace cs := by
  rw [skipSpace, List.dropWhile_append_of_pos h]
  rfl

theorem skipSpace_cons {c : Char} (h : isSpace c = false) (cs : List Char) : skipSpace (c :: cs) = c :: cs :=
  List.dropWhile_cons_of_neg (by simp [h])

theorem colon_append {gap : List Char} (h : Blank gap) (cs : List Char) : colon (gap ++ ':' :: cs) = .ok cs := by
  rw [colon, skipSpace_append h, skipSpace_cons (by decide)]
  rfl

theorem nextItem_comma {gap : List Char} (h : Blank gap) (cs : List Char) :
    nextItem false (gap ++ ',' :: cs) =
      match skipSpace cs with
      | [] => .error .endInValue
      | ']' :: _ => .error .trailingComma
      | rest => .ok (some rest) := by
  rw [nextItem, skipSpace_append h, skipSpace_cons (by decide)]
  rfl

/-- The next item stands behind its separator. -/
theorem nextItem_separator {first : Bool} {sep : List Char} (h : Separator first sep) {c : Char} {cs : List Char}
    (hspace : isSpace c = false) (hclose : c ≠ ']') : nextItem first (sep ++ c :: cs) = .ok (some (c :: cs)) := by
  cases h with
  | first h =>
    rw [nextItem, skipSpace_append h, skipSpace_cons hspace]
    split <;> simp_all
  | comma h h' =>
    rw [List.append_assoc, List.cons_append, nextItem_comma h, skipSpace_append h', skipSpace_cons hspace]
    split <;> simp_all

theorem nextItem_close (first : Bool) {gap : List Char} (h : Blank gap) (cs : List Char) :
    nextItem first (gap ++ ']' :: cs) = .ok none := by
  rw [nextItem, skipSpace_append h, skipSpace_cons (by decide)]
  rfl

theorem closeList_append {gap : List Char} (h : Blank gap) (cs : List Char) : closeList (gap ++ ']' :: cs) = .ok cs := by
  rw [closeList, skipSpace_append h, skipSpace_cons (by decide)]
  rfl

theorem nextName_comma {gap : List Char} (h : Blank gap) (cs : List Char) :
    nextName false (gap ++ ',' :: cs) =
      match skipSpace cs with
      | [] => throw .endInValue
      | '"' :: rest => do return some (← textBody rest)
      | '}' :: _ => throw .trailingComma
      | _ => throw .keyNotText := by
  rw [nextName, skipSpace_append h, skipSpace_cons (by decide)]
  rfl

/-- The next name stands behind its separator, in quotes. -/
theorem nextName_separator {first : Bool} {sep : List Char} (h : Separator first sep) (name : String)
    (cs : List Char) :
    nextName first (sep ++ '"' :: (escaped name ++ '"' :: cs)) = .ok (some (name, cs)) := by
  have hname : (do return some (← textBody (escaped name ++ '"' :: cs)) : Except Error _) = .ok (some (name, cs)) := by
    rw [textBody_escaped]
    rfl
  cases h with
  | first h =>
    rw [nextName, skipSpace_append h, skipSpace_cons (by decide)]
    exact hname
  | comma h h' =>
    rw [List.append_assoc, List.cons_append, nextName_comma h, skipSpace_append h', skipSpace_cons (by decide)]
    exact hname

theorem nextName_close (first : Bool) {gap : List Char} (h : Blank gap) (cs : List Char) :
    nextName first (gap ++ '}' :: cs) = .ok none := by
  rw [nextName, skipSpace_append h, skipSpace_cons (by decide)]
  rfl

/-! ## Loops -/

/-- A reader reads a value as `v`: from every spelling of it, behind white space, the reader delivers `v` and leaves
what stands behind the value. -/
def Reads (reader : Reader α) (x : Json) (v : α) : Prop :=
  ∀ {gap text rest : List Char}, Blank gap → Spells x text → AfterValue rest →
    reader (gap ++ (text ++ rest)) = .ok (v, rest)

/-- The same for a reader that starts at the colon of a member. -/
def ReadsMember (reader : Reader σ) (x : Json) (s : σ) : Prop :=
  ∀ {gap gap' text rest : List Char}, Blank gap → Blank gap' → Spells x text → AfterValue rest →
    reader (gap ++ ':' :: (gap' ++ (text ++ rest))) = .ok (s, rest)

/-- A text that spells a value and nothing else is read as a whole. -/
theorem Reads.readAll {reader : Reader α} {x : Json} {v : α} (h : Reads reader x v) {text : String}
    (htext : Spells x text.toList) : readAll reader text = .ok v := by
  have hend : AfterValue [] := trivial
  have hread := h blank_nil htext hend
  rw [List.nil_append, List.append_nil] at hread
  rw [Json.readAll, hread]
  rfl

theorem afterValue_append {gap : List Char} (h : Blank gap) {c : Char} (hc : c = ',' ∨ c = ']' ∨ c = '}')
    (rest : List Char) : AfterValue (gap ++ c :: rest) := by
  cases gap with
  | nil => exact Or.inr hc
  | cons d gap => exact Or.inl h.head

theorem Items.afterValue {R : α → List Char → Prop} {xs : List α} {cs : List Char} (h : Items R false xs cs)
    (rest : List Char) : AfterValue (cs ++ rest) := by
  cases h with
  | close h =>
    rw [List.append_assoc]
    exact afterValue_append h (Or.inr (Or.inl rfl)) _
  | item hsep =>
    cases hsep with
    | comma h h' =>
      rw [List.append_assoc, List.append_assoc]
      exact afterValue_append h (Or.inl rfl) _

theorem Members.afterValue {R : Json → List Char → Prop} {ms : List (String × Json)} {cs : List Char}
    (h : Members R false ms cs) (rest : List Char) : AfterValue (cs ++ rest) := by
  cases h with
  | close h =>
    rw [List.append_assoc]
    exact afterValue_append h (Or.inr (Or.inr rfl)) _
  | member _ hsep =>
    cases hsep with
    | comma h h' =>
      rw [List.append_assoc, List.append_assoc]
      exact afterValue_append h (Or.inl rfl) _

/-- **The items of a list are read** as each of them is, by induction on the spelling. -/
theorem items_reads {item : Reader α} {first : Bool} {xs : List Json} {cs : List Char}
    (hcs : Items Spells first xs cs) {vs : List α} (h : List.Forall₂ (Reads item) xs vs) (rest : List Char)
    {steps : Nat} (hsteps : xs.length < steps) : items item steps first (cs ++ rest) = .ok (vs, rest) := by
  induction hcs generalizing vs steps with
  | close hgap =>
    obtain ⟨n, rfl⟩ : ∃ n, steps = n + 1 := ⟨steps - 1, by omega⟩
    cases h
    rw [items, List.append_assoc, List.singleton_append, nextItem_close _ hgap]
    simp only [bind, Except.bind, pure, Except.pure, closeList_append hgap]
  | @item first sep text more x xs hsep hx hmore ih =>
    obtain ⟨n, rfl⟩ : ∃ n, steps = n + 1 := ⟨steps - 1, by omega⟩
    cases h with
    | @cons _ v _ vs hv hvs =>
      have hread := hv blank_nil hx (hmore.afterValue rest)
      have hrest := ih hvs (Nat.lt_of_succ_lt_succ hsteps)
      obtain ⟨c, text', rfl, hspace, hclose, -⟩ := hx.exists_cons
      rw [items, List.append_assoc, List.append_assoc, List.cons_append, nextItem_separator hsep hspace hclose]
      rw [List.nil_append, List.cons_append] at hread
      simp only [bind, Except.bind, pure, Except.pure, hread, hrest]

theorem Items.length_le {R : α → List Char → Prop} {first : Bool} {xs : List α} {cs : List Char}
    (h : Items R first xs cs) (hR : ∀ x text, R x text → text ≠ []) : xs.length ≤ cs.length := by
  induction h with
  | close => exact Nat.zero_le _
  | item _ hx _ ih =>
    have := List.length_pos_of_ne_nil (hR _ _ hx)
    simp only [List.length_append, List.length_cons]
    omega

theorem Members.length_le {R : Json → List Char → Prop} {first : Bool} {ms : List (String × Json)} {cs : List Char}
    (h : Members R first ms cs) : ms.length ≤ cs.length := by
  induction h with
  | close => exact Nat.zero_le _
  | member _ _ _ _ _ ih =>
    simp only [List.length_append, List.length_cons]
    omega

/-- **The members of an object are read** one after another, if each is taken up by what was read before it. By
induction on the spelling. -/
theorem members_reads (member : String → σ → Reader σ) (step : σ → String × Json → Option σ) {first : Bool}
    {ms : List (String × Json)} {cs : List Char} (hcs : Members Spells first ms cs)
    (hstep : ∀ m ∈ ms, ∀ s s', step s m = some s' → ReadsMember (member m.1 s) m.2 s') {s s' : σ}
    (h : ms.foldlM step s = some s') (rest : List Char) {steps : Nat} (hsteps : ms.length < steps) :
    members member steps first s (cs ++ rest) = .ok (s', rest) := by
  induction hcs generalizing s steps with
  | close hgap =>
    obtain ⟨n, rfl⟩ : ∃ n, steps = n + 1 := ⟨steps - 1, by omega⟩
    cases h
    rw [members, List.append_assoc, List.singleton_append, nextName_close _ hgap]
    simp only [bind, Except.bind, pure, Except.pure, skipSpace_append hgap]
    rw [skipSpace_cons (by decide)]
  | @member first sep gap gap' text more name x ms hsep hgap hgap' hx hmore ih =>
    obtain ⟨n, rfl⟩ : ∃ n, steps = n + 1 := ⟨steps - 1, by omega⟩
    rw [List.foldlM_cons] at h
    obtain ⟨s₁, hs₁, hrest⟩ := Option.bind_eq_some_iff.1 h
    have hread := hstep _ List.mem_cons_self s s₁ hs₁ hgap hgap' hx (hmore.afterValue rest)
    have htail := ih (fun m hm => hstep m (List.mem_cons_of_mem _ hm)) hrest (Nat.lt_of_succ_lt_succ hsteps)
    have htext : sep ++ '"' :: (escaped name ++ '"' :: (gap ++ ':' :: (gap' ++ (text ++ more)))) ++ rest =
        sep ++ '"' :: (escaped name ++ '"' :: (gap ++ ':' :: (gap' ++ (text ++ (more ++ rest))))) := by
      simp only [List.append_assoc, List.cons_append]
    rw [members, htext, nextName_separator hsep]
    simp only [bind, Except.bind, hread, htail]

/-! ## Values of any kind -/

theorem Spells.ne_nil {x : Json} {text : List Char} (h : Spells x text) : text ≠ [] := by
  obtain ⟨c, rest, rfl, -⟩ := h.exists_cons
  exact List.cons_ne_nil c rest

theorem listBody_reads {item : Reader α} {xs : List Json} {cs : List Char} (hcs : Items Spells true xs cs)
    {vs : List α} (h : List.Forall₂ (Reads item) xs vs) (rest : List Char) :
    listBody item (cs ++ rest) = .ok (vs, rest) := by
  have hlength := hcs.length_le fun _ _ => Spells.ne_nil
  exact items_reads hcs h rest (by rw [List.length_append]; omega)

theorem objectBody_reads (member : String → σ → Reader σ) (step : σ → String × Json → Option σ)
    {ms : List (String × Json)} {cs : List Char} (hcs : Members Spells true ms cs)
    (hstep : ∀ m ∈ ms, ∀ s s', step s m = some s' → ReadsMember (member m.1 s) m.2 s') {s s' : σ}
    (h : ms.foldlM step s = some s') (rest : List Char) : objectBody member s (cs ++ rest) = .ok (s', rest) := by
  have hlength := hcs.length_le
  exact members_reads member step hcs hstep h rest (by rw [List.length_append]; omega)

/-- A value behind its colon, read as it is and put into what was read before. -/
theorem Reads.member {reader : Reader α} {x : Json} {v : α} (h : Reads reader x v) (put : α → σ) :
    ReadsMember (fun cs => do
      let (x, rest) ← reader (← colon cs)
      return (put x, rest)) x (put v) := by
  intro gap gap' text rest hgap hgap' htext hrest
  simp only [colon_append hgap, bind, Except.bind, h hgap' htext hrest, pure, Except.pure]

/-- What a fold puts in front of what it read before is what the images of the elements are, from the last on. -/
theorem foldlM_cons_eq {β : Type} {f : α → Option β} {xs : List α} {ys : List β} (h : xs.mapM f = some ys)
    (read : List β) : xs.foldlM (fun read x => (f x).map (· :: read)) read = some (ys.reverse ++ read) := by
  induction xs generalizing read ys with
  | nil =>
    cases h
    rfl
  | cons x xs ih =>
    rw [List.mapM_cons] at h
    obtain ⟨y, hy, h⟩ := Option.bind_eq_some_iff.1 h
    obtain ⟨ys, hys, h⟩ := Option.bind_eq_some_iff.1 h
    cases h
    rw [List.foldlM_cons, hy, List.reverse_cons, List.append_assoc]
    exact ih hys (y :: read)

theorem anyValue_append {gap : List Char} (h : Blank gap) (depth : Nat) (cs : List Char) :
    anyValue depth (gap ++ cs) = anyValue depth cs := by
  rw [anyValue.eq_def, anyValue.eq_def]
  dsimp only
  rw [skipSpace_append h]

theorem anyValue_of_numeral (depth : Nat) {c : Char} (hc : c = '-' ∨ isDigit c = true) (cs : List Char) :
    anyValue depth (c :: cs) = do
      let (n, rest) ← numeral (c :: cs)
      return (n.toJson, rest) := by
  rw [anyValue.eq_def]
  dsimp only
  rw [skipSpace_cons (isSpace_of_numeral hc)]
  split
  · next heq => cases heq
  · next heq => cases heq; exact absurd rfl (ne_of_numeral hc (by decide) (by decide))
  · next heq => cases heq; exact absurd rfl (ne_of_numeral hc (by decide) (by decide))
  · next heq => cases heq; exact absurd rfl (ne_of_numeral hc (by decide) (by decide))
  · next heq => cases heq; exact absurd rfl (ne_of_numeral hc (by decide) (by decide))
  · next heq => cases heq; exact absurd rfl (ne_of_numeral hc (by decide) (by decide))
  · next heq => cases heq; exact absurd rfl (ne_of_numeral hc (by decide) (by decide))
  · next heq =>
    cases heq
    rw [if_pos (by simpa using hc)]

/-- Reads a member and puts it in front of those that were read. -/
def collectMember (reader : Reader α) (name : String) (ms : List (String × α)) : Reader (List (String × α)) := fun cs => do
  let (x, rest) ← reader (← colon cs)
  return ((name, x) :: ms, rest)

/-- Members are collected with the values that they are read as, from the last one on. -/
theorem objectBody_collectMember {reader : Reader α} {value? : Json → Option α} {ms : List (String × Json)}
    {cs : List Char} (hcs : Members Spells true ms cs)
    (hread : ∀ m ∈ ms, ∀ v, value? m.2 = some v → Reads reader m.2 v) {vs : List (String × α)}
    (h : ms.mapM (fun m => (value? m.2).map fun v => (m.1, v)) = some vs) (rest : List Char) :
    objectBody (collectMember reader) [] (cs ++ rest) = .ok (vs.reverse, rest) := by
  have hstep : ∀ m ∈ ms, ∀ read read', ((value? m.2).map fun v => (m.1, v)).map (· :: read) = some read' →
      ReadsMember (collectMember reader m.1 read) m.2 read' := by
    intro m hm read read' hstep
    obtain ⟨entry, hentry, rfl⟩ := Option.map_eq_some_iff.1 hstep
    obtain ⟨v, hv, rfl⟩ := Option.map_eq_some_iff.1 hentry
    exact Reads.member (hread m hm v hv) fun x => (m.1, x) :: read
  have hall := objectBody_reads (collectMember reader) _ hcs hstep (foldlM_cons_eq h []) rest
  rwa [List.append_nil] at hall

theorem anyValue_text (depth : Nat) (cs : List Char) :
    anyValue depth ('"' :: cs) = do
      let (s, rest) ← textBody cs
      return (.text s, rest) := by
  rw [anyValue.eq_def]
  rfl

theorem anyValue_list (depth : Nat) (cs : List Char) :
    anyValue (depth + 1) ('[' :: cs) = do
      let (xs, rest) ← listBody (anyValue depth) cs
      return (.list xs, rest) := by
  rw [anyValue.eq_def]
  rfl

theorem anyValue_object (depth : Nat) (cs : List Char) :
    anyValue (depth + 1) ('{' :: cs) = do
      let (ms, rest) ← objectBody (collectMember (anyValue depth)) [] cs
      return (.object ms.reverse, rest) := by
  rw [anyValue.eq_def]
  rfl

/-- **Every value that can be stored is read as itself**, by induction on how deep it is. -/
theorem reads_anyValue {depth : Nat} {x : Json} (hx : Storable depth x) : Reads (anyValue depth) x x := by
  induction hx with
  | null =>
    intro gap text rest hgap htext hrest
    cases htext
    rw [anyValue_append hgap, anyValue.eq_def]
    rfl
  | bool b =>
    intro gap text rest hgap htext hrest
    cases htext <;> rw [anyValue_append hgap, anyValue.eq_def] <;> rfl
  | @integer depth n hmin hmax =>
    intro gap text rest hgap htext hrest
    cases htext
    obtain ⟨c, cs, heq, hc⟩ := exists_toString_eq_cons n
    have hread : numeral (c :: (cs ++ rest)) = .ok (.integer n, rest) := by
      rw [← List.cons_append, ← heq]
      exact numeral_toString hmin hmax hrest
    rw [heq, List.cons_append, anyValue_append hgap, anyValue_of_numeral depth hc, hread]
    rfl
  | text s =>
    intro gap text rest hgap htext hrest
    cases htext
    rw [anyValue_append hgap, List.cons_append, List.append_assoc, List.singleton_append, anyValue_text,
      textBody_escaped]
    rfl
  | list h ih =>
    intro gap text rest hgap htext hrest
    cases htext with
    | list hcs =>
    rw [anyValue_append hgap, List.cons_append, anyValue_list, listBody_reads hcs (List.forall₂_same.2 ih) rest]
    rfl
  | @object depth ms h ih =>
    intro gap text rest hgap htext hrest
    cases htext with
    | object hcs =>
    have hread : ∀ m ∈ ms, ∀ v, some m.2 = some v → Reads (anyValue depth) m.2 v := by
      intro m hm v hv
      cases hv
      exact ih m hm
    have hms : ms.mapM (fun m => (some m.2).map fun v => (m.1, v)) = some ms := by
      refine (List.mapM_pure (f := id)).trans ?_
      rw [List.map_id]
      rfl
    rw [anyValue_append hgap, List.cons_append, anyValue_object, objectBody_collectMember hcs hread hms rest]
    simp only [bind, Except.bind, pure, Except.pure, List.reverse_reverse]

end LintDelta.Json
