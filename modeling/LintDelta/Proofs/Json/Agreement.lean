import LintDelta.Proofs.Json.Inspection
import LintDelta.Proofs.Json.Passing

/-!
# Reading documents

Two ways lead from a document to a value of a shape: reading a text that spells it, and looking at the document itself.
For the shapes of reports they agree in both directions: from every spelling the reader delivers what the document has
in the shape, and fails if it has nothing (`Shape.toOption_readText`).
-/

namespace LintDelta.Json

open Doc (MemberList)

/-! ## Simple shapes -/

section

variable {α σ τ : Type}

/-- A reader sees a value in a document: from every spelling of it, behind white space, the reader delivers that value
and leaves what stands behind the document, or it fails if there is no value. -/
def Sees (reader : Reader α) (x : Doc) (value : Option α) : Prop :=
  ∀ {gap text rest : List Char}, Blank gap → x.Spells text → AfterValue rest →
    (reader (gap ++ (text ++ rest))).toOption = value.map (·, rest)

/-- The same for a reader that starts at the colon of a member. -/
def SeesMember (reader : Reader σ) (x : Doc) (value : Option σ) : Prop :=
  ∀ {gap gap' text rest : List Char}, Blank gap → Blank gap' → x.Spells text → AfterValue rest →
    (reader (gap ++ ':' :: (gap' ++ (text ++ rest)))).toOption = value.map (·, rest)

/-- What a reader comes upon behind white space. -/
theorem Doc.Spells.exists_skipSpace {x : Doc} {gap text : List Char} (h : x.Spells text) (hgap : Blank gap)
    (rest : List Char) :
    ∃ c cs, text = c :: cs ∧ x.starts c ∧ skipSpace (gap ++ (text ++ rest)) = c :: (cs ++ rest) := by
  obtain ⟨c, cs, rfl, hc⟩ := h.exists_cons
  refine ⟨c, cs, rfl, hc, ?_⟩
  rw [skipSpace_append hgap, List.cons_append, skipSpace_cons (Doc.isSpace_of_starts hc)]

theorem sees_textOf (wanted : String) (x : Doc) : Sees (textOf wanted) x ((Shape.text wanted).ofDoc? x) := by
  intro gap text rest hgap htext hrest
  by_cases hx : ∃ s, x = .text s
  · obtain ⟨s, rfl⟩ := hx
    cases htext with
    | text h =>
    cases h with
    | @mk v body hbody =>
    rw [textOf, skipSpace_append hgap, List.cons_append, List.append_assoc, skipSpace_cons (by decide)]
    exact textBody_of_decodes hbody rest
  · have hnone : (Shape.text wanted).ofDoc? x = none := by
      cases x with
      | text s => exact absurd ⟨s, rfl⟩ hx
      | _ => rfl
    obtain ⟨c, cs, rfl, hc, hspace⟩ := htext.exists_skipSpace hgap rest
    rw [textOf, hspace, hnone]
    split
    · next heq => exact absurd ((Doc.eq_of_starts hc).2.1 (List.cons.inj heq).1) hx
    · rfl

/-- **The items of a list are seen** as each of them is, by induction on the spelling. -/
theorem items_sees {item : Reader α} {value? : Doc → Option α} {first : Bool} {xs : List Doc} {cs : List Char}
    (hcs : Items Doc.Spells first xs cs) (h : ∀ x ∈ xs, Sees item x (value? x)) (rest : List Char) {steps : Nat}
    (hsteps : xs.length < steps) : (items item steps first (cs ++ rest)).toOption = (xs.mapM value?).map (·, rest) := by
  induction hcs generalizing steps with
  | close hgap =>
    obtain ⟨k, rfl⟩ : ∃ k, steps = k + 1 := ⟨steps - 1, by omega⟩
    rw [items, List.append_assoc, List.singleton_append, nextItem_close _ hgap]
    simp only [bind, Except.bind, pure, Except.pure, closeList_append hgap]
    rfl
  | @item first sep text more x xs hsep hx hmore ih =>
    obtain ⟨k, rfl⟩ : ∃ k, steps = k + 1 := ⟨steps - 1, by omega⟩
    have hread := h x List.mem_cons_self blank_nil hx (hmore.afterValue rest)
    have hrest := ih (fun y hy => h y (List.mem_cons_of_mem x hy)) (Nat.lt_of_succ_lt_succ hsteps)
    obtain ⟨c, text', rfl, hc⟩ := hx.exists_cons
    rw [List.nil_append, List.cons_append] at hread
    rw [items, List.append_assoc, List.append_assoc, List.cons_append,
      nextItem_separator hsep (Doc.isSpace_of_starts hc) (Doc.starts_ne hc (by decide)), List.mapM_cons]
    show (item _ >>= _).toOption = _
    rw [toOption_bind, hread]
    cases value? x with
    | none => rfl
    | some v =>
      show (items item k false (more ++ rest) >>= _).toOption = _
      rw [toOption_bind, hrest]
      cases xs.mapM value? <;> rfl

theorem Doc.Spells.ne_nil {x : Doc} {text : List Char} (h : x.Spells text) : text ≠ [] := by
  obtain ⟨c, cs, rfl, -⟩ := h.exists_cons
  exact List.cons_ne_nil c cs

theorem listBody_sees {item : Reader α} {value? : Doc → Option α} {xs : List Doc} {cs : List Char}
    (hcs : Items Doc.Spells true xs cs) (h : ∀ x ∈ xs, Sees item x (value? x)) (rest : List Char) :
    (listBody item (cs ++ rest)).toOption = (xs.mapM value?).map (·, rest) := by
  have hlength := hcs.length_le fun _ _ => Doc.Spells.ne_nil
  exact items_sees hcs h rest (by rw [List.length_append]; omega)

theorem sees_listOf {item : Reader α} {value? : Doc → Option α} (h : ∀ x, Sees item x (value? x)) (x : Doc) :
    Sees (listOf item) x (x.itemsOf? value?) := by
  intro gap text rest hgap htext hrest
  by_cases hx : ∃ xs, x = .list xs
  · obtain ⟨xs, rfl⟩ := hx
    cases htext with
    | list hcs =>
    rw [listOf, skipSpace_append hgap, List.cons_append, skipSpace_cons (by decide)]
    exact listBody_sees hcs (fun y _ => h y) rest
  · have hnone : x.itemsOf? value? = none := by
      cases x with
      | list xs => exact absurd ⟨xs, rfl⟩ hx
      | _ => rfl
    obtain ⟨c, cs, rfl, hc, hspace⟩ := htext.exists_skipSpace hgap rest
    rw [listOf, hspace, hnone]
    split
    · next heq => exact absurd ((Doc.eq_of_starts hc).2.2.1 (List.cons.inj heq).1) hx
    · rfl

theorem sees_nullable {reader : Reader α} {value? : Doc → Option α} (h : ∀ x, Sees reader x (value? x)) (x : Doc) :
    Sees (nullable reader) x (x.nullOr value?) := by
  intro gap text rest hgap htext hrest
  by_cases hx : x = .null
  · subst hx
    cases htext
    rw [nullable, skipSpace_append hgap]
    rfl
  · have hvalue : x.nullOr value? = (value? x).map some := by
      cases x with
      | null => exact absurd rfl hx
      | _ => rfl
    have hread := h x blank_nil htext hrest
    obtain ⟨c, cs, rfl, hc, hspace⟩ := htext.exists_skipSpace hgap rest
    rw [List.nil_append, List.cons_append] at hread
    rw [nullable, hspace, hvalue]
    split
    · next heq => exact absurd ((Doc.eq_of_starts hc).1 (List.cons.inj heq).1) hx
    · rw [toOption_bind, hread]
      cases value? x <;> rfl

/-! ## Objects -/

/-- The next name stands behind its separator, if it stands for characters. -/
theorem nextName_sees {first : Bool} {sep quoted : List Char} {name : Option String} (hsep : Separator first sep)
    (hname : Quoted name quoted) (cs : List Char) :
    (nextName first (sep ++ (quoted ++ cs))).toOption = name.map fun name => some (name, cs) := by
  cases hname with
  | @mk v body hbody =>
  have hread : (do return some (← textBody (body ++ '"' :: cs)) : Except Error (Option (String × List Char))).toOption =
      (v.map String.ofList).map fun name => some (name, cs) := by
    rw [toOption_bind, textBody_of_decodes hbody]
    cases v <;> rfl
  rw [List.cons_append, List.append_assoc, List.singleton_append]
  cases hsep with
  | first h =>
    rw [nextName, skipSpace_append h, skipSpace_cons (by decide)]
    exact hread
  | comma h h' =>
    rw [List.append_assoc, List.cons_append, nextName_comma h, skipSpace_append h', skipSpace_cons (by decide)]
    exact hread

/-- **The members of an object are seen** one after another, by induction on the spelling. -/
theorem members_sees {member : String → σ → Reader σ} {step : σ → String → Doc → Option σ}
    (hstep : ∀ name s x, SeesMember (member name s) x (step s name x)) {first : Bool} {ms : MemberList}
    {cs : List Char} (hcs : Doc.Members Doc.Spells first ms cs) (s : σ) (rest : List Char) {steps : Nat}
    (hsteps : ms.length < steps) :
    (members member steps first s (cs ++ rest)).toOption = (ms.foldlM (named step) s).map (·, rest) := by
  induction hcs generalizing s steps with
  | close hgap =>
    obtain ⟨k, rfl⟩ : ∃ k, steps = k + 1 := ⟨steps - 1, by omega⟩
    rw [members, List.append_assoc, List.singleton_append, nextName_close _ hgap]
    simp only [bind, Except.bind, pure, Except.pure, skipSpace_append hgap]
    rw [skipSpace_cons (by decide)]
    rfl
  | @member first sep quoted gap gap' text more name x ms hsep hname hgap hgap' hx hmore ih =>
    obtain ⟨k, rfl⟩ : ∃ k, steps = k + 1 := ⟨steps - 1, by omega⟩
    have htext : sep ++ (quoted ++ (gap ++ ':' :: (gap' ++ (text ++ more)))) ++ rest =
        sep ++ (quoted ++ (gap ++ ':' :: (gap' ++ (text ++ (more ++ rest))))) := by
      simp only [List.append_assoc, List.cons_append]
    rw [members, htext, toOption_bind, nextName_sees hsep hname, List.foldlM_cons]
    cases name with
    | none => rfl
    | some name =>
      have hread := hstep name s x hgap hgap' hx (hmore.afterValue rest)
      show (member name s _ >>= _).toOption = ((step s name x).bind _).map _
      rw [toOption_bind, hread]
      cases step s name x with
      | none => rfl
      | some s' => exact ih s' (Nat.lt_of_succ_lt_succ hsteps)

theorem Doc.Members.length_le {R : Doc → List Char → Prop} {first : Bool} {ms : MemberList} {cs : List Char}
    (h : Doc.Members R first ms cs) : ms.length ≤ cs.length := by
  induction h with
  | close => exact Nat.zero_le _
  | member _ _ _ _ _ _ ih =>
    simp only [List.length_append, List.length_cons]
    omega

theorem objectBody_sees {member : String → σ → Reader σ} {step : σ → String → Doc → Option σ}
    (hstep : ∀ name s x, SeesMember (member name s) x (step s name x)) {ms : MemberList} {cs : List Char}
    (hcs : Doc.Members Doc.Spells true ms cs) (s : σ) (rest : List Char) :
    (objectBody member s (cs ++ rest)).toOption = (ms.foldlM (named step) s).map (·, rest) := by
  have hlength := hcs.length_le
  exact members_sees hstep hcs s rest (by rw [List.length_append]; omega)

theorem Sees.member {reader : Reader α} {x : Doc} {value : Option α} (h : Sees reader x value) (put : α → σ) :
    SeesMember (fun cs => do
      let (x, rest) ← reader (← colon cs)
      return (put x, rest)) x (value.map put) := by
  intro gap gap' text rest hgap hgap' htext hrest
  simp only [colon_append hgap]
  show (reader _ >>= _).toOption = _
  rw [toOption_bind, h hgap' htext hrest]
  cases value <;> rfl

/-- A member that nobody reads changes nothing. -/
theorem seesMember_skipMember (s : σ) (x : Doc) : SeesMember (skipMember s) x (some s) := by
  intro gap gap' text rest hgap hgap' htext hrest
  simp only [skipMember, colon_append hgap, bind, Except.bind, skipValue_of_spells htext hgap' hrest]
  rfl

theorem Sees.intoSlot {reader : Reader α} {x : Doc} {value : Option α} (h : Sees reader x value) (key : String)
    (slot : Option α) (put : α → σ) : SeesMember (intoSlot key slot put reader) x (fillSlot slot put value) := by
  cases slot with
  | some _ => exact fun _ _ _ _ => rfl
  | none => exact h.member put

theorem SeesMember.behind {reader : Reader σ} {x : Doc} {value : Option σ} (h : SeesMember reader x value) (slot : α) :
    SeesMember (fun cs => do
      let (slots, cs) ← reader cs
      return ((slot, slots), cs)) x (value.map (slot, ·)) := by
  intro gap gap' text rest hgap hgap' htext hrest
  show (reader _ >>= _).toOption = _
  rw [toOption_bind, h hgap hgap' htext hrest]
  cases value <;> rfl

end

/-! ## Records from lists -/

section

variable {α β : Type}

/-- A reader of the items of a list that closes it. -/
def closing (reader : Reader α) : Reader α := fun cs => do
  let (v, cs) ← reader cs
  return (v, ← closeList cs)

theorem closing_congr {reader reader' : Reader α} {cs cs' : List Char} (h : reader cs = reader' cs') :
    closing reader cs = closing reader' cs' := by
  unfold closing
  rw [h]

theorem closing_of_error {reader : Reader α} {cs : List Char} {e : Error} (h : reader cs = .error e) :
    (closing reader cs).toOption = none := by
  rw [closing, h]
  rfl

/-- A reader of an item and of what stands behind it. -/
def inPair (item : Reader α) (next : Reader β) : Reader (α × β) := fun cs => do
  let (x, cs) ← item cs
  let (xs, cs) ← next cs
  return ((x, xs), cs)

theorem toOption_closing_inPair (item : Reader α) (next : Reader β) (cs : List Char) :
    (closing (inPair item next) cs).toOption =
      (item cs).toOption.bind fun (x, cs) => (closing next cs).toOption.map fun (xs, cs) => ((x, xs), cs) := by
  unfold closing inPair
  cases item cs with
  | error e => rfl
  | ok v =>
    obtain ⟨x, cs'⟩ := v
    simp only [bind, Except.bind, Except.toOption, Option.bind_some]
    cases next cs' with
    | error e => rfl
    | ok w =>
      obtain ⟨xs, cs''⟩ := w
      simp only [pure, Except.pure]
      cases closeList cs'' <;> rfl

/-- The first item of a list and the others behind it. -/
theorem exists_nextItem {first : Bool} {x : Doc} {xs : List Doc} {cs : List Char}
    (h : Items Doc.Spells first (x :: xs) cs) :
    ∃ text more, x.Spells text ∧ Items Doc.Spells false xs more ∧
      ∀ rest, nextItem first (cs ++ rest) = .ok (some (text ++ (more ++ rest))) := by
  cases h with
  | @item _ sep text more _ _ hsep hx hmore =>
    refine ⟨text, more, hx, hmore, fun rest => ?_⟩
    obtain ⟨c, text', rfl, hc⟩ := hx.exists_cons
    rw [List.append_assoc, List.append_assoc]
    exact nextItem_separator hsep (Doc.isSpace_of_starts hc) (Doc.starts_ne hc (by decide))

/-- A list that goes on cannot be closed. -/
theorem closeList_of_item {first : Bool} {x : Doc} {xs : List Doc} {cs : List Char}
    (h : Items Doc.Spells first (x :: xs) cs) (rest : List Char) : (closeList (cs ++ rest)).toOption = none := by
  cases h with
  | @item _ sep text more _ _ hsep hx hmore =>
    obtain ⟨c, text', rfl, hc⟩ := hx.exists_cons
    have hspace := skipSpace_cons (Doc.isSpace_of_starts hc)
    have hclose : c ≠ ']' := Doc.starts_ne hc (by decide)
    have hcomma : c ≠ ',' := Doc.starts_ne hc (by decide)
    simp only [List.append_assoc, List.cons_append]
    cases hsep with
    | first hgap => simp [closeList, skipSpace_append hgap, hspace, hclose, hcomma, Except.toOption]
    | comma hgap hgap' =>
      have hspace' := skipSpace_cons (c := ',') (by decide)
      simp [closeList, skipSpace_append hgap, skipSpace_append hgap', hspace, hspace', hclose, Except.toOption]

theorem exists_gap_of_nil {first : Bool} {cs : List Char} (h : Items Doc.Spells first [] cs) :
    ∃ gap, Blank gap ∧ cs = gap ++ [']'] := by
  cases h with
  | close hgap => exact ⟨_, hgap, rfl⟩

theorem nextItem_of_nil {first : Bool} {cs : List Char} (h : Items Doc.Spells first [] cs) (rest : List Char) :
    nextItem first (cs ++ rest) = .ok none := by
  obtain ⟨gap, hgap, rfl⟩ := exists_gap_of_nil h
  rw [List.append_assoc, List.singleton_append, nextItem_close _ hgap]

/-- A field is read from the first item of a list if the others are from the items behind it. -/
theorem closing_first {reader : Reader (α × β)} {item : Reader α} {next : Reader β} {first : Bool}
    (hreader : ∀ cs cs', nextItem first cs = .ok (some cs') → reader cs = inPair item next cs')
    {value? : Doc → Option α} (hitem : ∀ x, Sees item x (value? x)) {xs : List Doc} {rest? : Option β} {rest : List Char}
    (hnext : ∀ more, Items Doc.Spells false xs more → (closing next (more ++ rest)).toOption = rest?.map (·, rest))
    {x : Doc} {cs : List Char} (hcs : Items Doc.Spells first (x :: xs) cs) :
    (closing reader (cs ++ rest)).toOption = ((value? x).bind fun v => rest?.map (v, ·)).map (·, rest) := by
  obtain ⟨text, more, hx, hmore, htext⟩ := exists_nextItem hcs
  have hread := hitem x blank_nil hx (hmore.afterValue rest)
  rw [List.nil_append] at hread
  rw [closing_congr (hreader _ _ (htext rest)), toOption_closing_inPair, hread]
  cases value? x with
  | none => rfl
  | some v =>
    show (closing next (more ++ rest)).toOption.map _ = _
    rw [hnext more hmore]
    cases rest? <;> rfl

/-- A field that is missing at the end of a list does not change what the others are read as. -/
theorem closing_missing {reader : Reader (α × β)} {next : Reader β} {v : α} {cs rest : List Char} {rest? : Option β}
    (hreader : reader cs = inPair (fun cs => .ok (v, cs)) next cs)
    (hnext : (closing next cs).toOption = rest?.map (·, rest)) :
    (closing reader cs).toOption = (rest?.map (v, ·)).map (·, rest) := by
  rw [closing_congr hreader, toOption_closing_inPair]
  show (closing next cs).toOption.map _ = _
  rw [hnext]
  cases rest? <;> rfl

end

/-! ## All shapes -/

/-- A record is seen in an object, in a list and in nothing else. -/
theorem sees_recordOf {wanted : String} {fields : Fields} (hreport : fields.isReport = true)
    {inOrder : Reader fields.Val}
    (hput : ∀ name ∈ fields.keys, ∀ slots x, ∃ reader, fields.put name slots = some reader ∧
      SeesMember reader x (fields.take slots name x))
    (hinOrder : ∀ xs cs rest, Items Doc.Spells true xs cs →
      (closing inOrder (cs ++ rest)).toOption = (fields.ofItems? xs).map (·, rest)) (x : Doc) :
    Sees (recordOf wanted fields inOrder fields.put) x ((Shape.record wanted fields).ofDoc? x) := by
  have hmember : ∀ name slots x,
      SeesMember ((fields.put name slots).getD (skipMember slots)) x (fields.take slots name x) := by
    intro name slots x
    by_cases hname : name ∈ fields.keys
    · obtain ⟨reader, hreader, hsees⟩ := hput name hname slots x
      rw [hreader]
      exact hsees
    · rw [put_eq_none fields hname, Fields.take_of_not_mem fields hname]
      exact seesMember_skipMember slots x
  intro gap text rest hgap htext hrest
  cases x with
  | list xs =>
    cases htext with
    | list hcs =>
    rw [recordOf, skipSpace_append hgap, List.cons_append, skipSpace_cons (by decide)]
    exact hinOrder xs _ rest hcs
  | object ms =>
    cases htext with
    | object hcs =>
    have hbody := objectBody_sees hmember hcs fields.empty rest
    have hcollect := Fields.collect_take fields hreport ms
    have hvalue : (Shape.record wanted fields).ofDoc? (.object ms) =
        (ms.foldlM (named fields.take) fields.empty).bind fun slots => (fields.finish slots).toOption :=
      hcollect.symm
    rw [recordOf, skipSpace_append hgap, List.cons_append, skipSpace_cons (by decide), hvalue]
    show (objectBody _ _ _ >>= _).toOption = _
    rw [toOption_bind, hbody]
    cases ms.foldlM (named fields.take) fields.empty with
    | none => rfl
    | some slots =>
      show (fields.finish slots >>= _).toOption = (fields.finish slots).toOption.map _
      rw [toOption_bind]
      cases fields.finish slots <;> rfl
  | _ =>
    obtain ⟨c, cs, rfl, hc, hspace⟩ := htext.exists_skipSpace hgap rest
    rw [recordOf, hspace]
    split
    · next heq =>
      obtain ⟨xs, hx⟩ := (Doc.eq_of_starts hc).2.2.1 (List.cons.inj heq).1
      cases hx
    · next heq =>
      obtain ⟨ms, hx⟩ := (Doc.eq_of_starts hc).2.2.2 (List.cons.inj heq).1
      cases hx
    · rfl

/-- A member is seen by the first field of a record, or else by the others. -/
theorem exists_pair_sees {α τ : Type} (key : String) {value? : Doc → Option α} {reader : Reader α}
    (hreader : ∀ x, Sees reader x (value? x)) {takeRest : τ → String → Doc → Option τ} {putRest : Option (Reader τ)}
    {name : String} {slots : τ} {x : Doc}
    (hrest : name ≠ key → ∃ reader, putRest = some reader ∧ SeesMember reader x (takeRest slots name x))
    (slot : Option α) :
    ∃ r, (if name = key then some (intoSlot key slot (fun v => (some v, slots)) reader)
        else putRest.map fun reader cs => do
          let (slots, cs) ← reader cs
          return ((slot, slots), cs)) = some r ∧
      SeesMember r x (takePair key value? takeRest (slot, slots) name x) := by
  unfold takePair
  by_cases hname : name = key
  · rw [if_pos hname, if_pos hname]
    exact ⟨_, rfl, Sees.intoSlot (hreader x) key slot _⟩
  · obtain ⟨reader, rfl, hsees⟩ := hrest hname
    rw [if_neg hname, if_neg hname]
    exact ⟨_, rfl, SeesMember.behind hsees slot⟩

mutual

/-- **Reading agrees with looking at the document**, for every shape of reports. -/
theorem Shape.sees : (shape : Shape) → shape.isReport = true → ∀ x, Sees shape.read x (shape.ofDoc? x)
  | .text wanted, _, x => sees_textOf wanted x
  | .list item, h, x => sees_listOf (item.sees h) x
  | .record wanted fields, h, x => by
    exact sees_recordOf h (fields.exists_put_sees h)
      (fun xs cs rest hcs => fields.inOrder_sees h (fields.wantedSize wanted) 0 xs cs rest hcs) x

/-- A member with the name of a field is read into it. -/
theorem Fields.exists_put_sees : (fields : Fields) → fields.isReport = true → ∀ name ∈ fields.keys,
    ∀ slots x, ∃ reader, fields.put name slots = some reader ∧ SeesMember reader x (fields.take slots name x)
  | .nil, _, name, hname, _, _ => nomatch hname
  | .required key shape rest, h, name, hname, (slot, slots), x => by
    obtain ⟨-, hshape, hrest⟩ := Fields.isReport_parts h
    exact exists_pair_sees key (shape.sees hshape) (fun hne =>
      rest.exists_put_sees hrest name ((List.mem_cons.1 hname).resolve_left hne) slots x) slot
  | .optional key shape rest, h, name, hname, (slot, slots), x => by
    obtain ⟨-, hshape, hrest⟩ := Fields.isReport_parts h
    exact exists_pair_sees key (sees_nullable (shape.sees hshape)) (fun hne =>
      rest.exists_put_sees hrest name ((List.mem_cons.1 hname).resolve_left hne) slots x) slot
  | .listed key item rest, h, name, hname, (slot, slots), x => by
    obtain ⟨-, hitem, hrest⟩ := Fields.isReport_parts h
    exact exists_pair_sees key (sees_listOf (item.sees hitem)) (fun hne =>
      rest.exists_put_sees hrest name ((List.mem_cons.1 hname).resolve_left hne) slots x) slot

/-- The fields are read from the items of a list. -/
theorem Fields.inOrder_sees : (fields : Fields) → fields.isReport = true → ∀ (wanted : String) (count : Nat) xs cs rest,
    Items Doc.Spells (count == 0) xs cs →
      (closing (fields.inOrder wanted count) (cs ++ rest)).toOption = (fields.ofItems? xs).map (·, rest)
  | .nil, _, wanted, count, [], cs, rest, hcs => by
    obtain ⟨gap, hgap, rfl⟩ := exists_gap_of_nil hcs
    show (closeList _ >>= _).toOption = _
    rw [List.append_assoc, List.singleton_append, closeList_append hgap]
    rfl
  | .nil, _, wanted, count, x :: xs, cs, rest, hcs => by
    show (closeList _ >>= _).toOption = none
    rw [toOption_bind, closeList_of_item hcs rest]
    rfl
  | .required key shape rest, h, wanted, count, [], cs, rest', hcs => by
    have hclose := nextItem_of_nil hcs rest'
    exact closing_of_error (by rw [Fields.inOrder]; simp only [hclose]; rfl)
  | .required key shape rest, h, wanted, count, x :: xs, cs, rest', hcs => by
    obtain ⟨-, hshape, hrest⟩ := Fields.isReport_parts h
    exact closing_first (fun cs cs' hnext => by rw [Fields.inOrder]; simp only [hnext]; rfl)
      (shape.sees hshape) (fun more hmore => rest.inOrder_sees hrest wanted (count + 1) xs more rest' hmore) hcs
  | .optional key shape rest, h, wanted, count, [], cs, rest', hcs => by
    have hclose := nextItem_of_nil hcs rest'
    exact closing_of_error (by rw [Fields.inOrder]; simp only [hclose]; rfl)
  | .optional key shape rest, h, wanted, count, x :: xs, cs, rest', hcs => by
    obtain ⟨-, hshape, hrest⟩ := Fields.isReport_parts h
    exact closing_first (fun cs cs' hnext => by rw [Fields.inOrder]; simp only [hnext]; rfl)
      (sees_nullable (shape.sees hshape)) (fun more hmore =>
        rest.inOrder_sees hrest wanted (count + 1) xs more rest' hmore) hcs
  | .listed key item rest, h, wanted, count, [], cs, rest', hcs => by
    have hclose := nextItem_of_nil hcs rest'
    obtain ⟨gap, hgap, rfl⟩ := exists_gap_of_nil hcs
    have hread := rest.inOrder_sees (Fields.isReport_parts h).2.2 wanted (count + 1) [] _ rest' (.close hgap)
    exact closing_missing (by rw [Fields.inOrder]; simp only [hclose]; rfl) hread
  | .listed key item rest, h, wanted, count, x :: xs, cs, rest', hcs => by
    obtain ⟨-, hitem, hrest⟩ := Fields.isReport_parts h
    exact closing_first (fun cs cs' hnext => by rw [Fields.inOrder]; simp only [hnext]; rfl)
      (sees_listOf (item.sees hitem)) (fun more hmore =>
        rest.inOrder_sees hrest wanted (count + 1) xs more rest' hmore) hcs

end

theorem afterValue_of_blank {cs : List Char} (h : Blank cs) : AfterValue cs := by
  cases cs with
  | nil => trivial
  | cons c cs => exact Or.inl h.head

/-- **A report is read exactly if its document has a value**, and then as that value. -/
theorem Shape.toOption_readText {shape : Shape} (hshape : shape.isReport = true) {x : Doc} {report : String}
    (h : x.WrittenAs report) : (shape.readText report).toOption = shape.ofDoc? x := by
  obtain ⟨before, text, after, hbefore, htext, hafter, hreport⟩ := h
  have hend : skipSpace after = [] := by
    rw [← List.append_nil after, skipSpace_append hafter]
    rfl
  have hread := shape.sees hshape x hbefore htext (afterValue_of_blank hafter)
  rw [Shape.readText, readAll, hreport, toOption_bind, hread]
  cases shape.ofDoc? x with
  | none => rfl
  | some v => simp [hend, pure, Except.pure, Except.toOption]

end LintDelta.Json