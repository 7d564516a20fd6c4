import LintDelta.Json.Shape
import LintDelta.Number.Machine
import LintDelta.Proofs.Json.Reading
import LintDelta.Proofs.Partial

/-!
# Reading shapes

Two ways lead from a JSON value to a value of a shape: reading a text that spells it, and looking at the value
itself (`Shape.ofJson?`). They agree for every shape and every spelling (`reads_of_ofJson?`). So what is read from a
text follows from the JSON value that was written, and neither white space nor escapes have to be looked at again.

An object makes a record if each of its members fills a field that was empty, in whatever order they come.
-/

namespace LintDelta.Json

/-! ## The value of a shape -/

/-- The names of the fields. -/
def Fields.keys : Fields → List String
  | .nil => []
  | .required key _ rest => key :: rest.keys
  | .optional key _ rest => key :: rest.keys
  | .listed key _ rest => key :: rest.keys

section

variable {α σ : Type}

/-- `null`, or a value. -/
def nullOr (value? : Json → Option α) : Json → Option (Option α)
  | .null => some none
  | x => (value? x).map some

/-- The items of a list, if each is a value. -/
def itemsOf? (value? : Json → Option α) : Json → Option (List α)
  | .list xs => xs.mapM value?
  | _ => none

def members? : Json → Option (List (String × Json))
  | .object ms => some ms
  | _ => none

/-- What a value that goes into a slot makes, if the slot is empty. -/
def fillSlot (slot : Option α) (put : α → σ) (value : Option α) : Option σ :=
  match slot with
  | some _ => none
  | none => value.map put

/-- The record whose fields are filled by members one after another. -/
def Fields.collect (fields : Fields) (fill : fields.Slots → String → Json → Option fields.Slots)
    (ms : List (String × Json)) : Option fields.Val :=
  (ms.foldlM (fun slots m => fill slots m.1 m.2) fields.empty).bind fun slots => (fields.finish slots).toOption

end

mutual

/-- The value that a JSON value has in a shape: records from objects without unknown members. -/
def Shape.ofJson? : (shape : Shape) → Json → Option shape.Val
  | .text _, .text s => some s
  | .flag, .bool b => some b
  | .signed, .integer n => Machine.check n
  | .list item, x => itemsOf? (fun x => item.ofJson? x) x
  | .dict item, .object ms => ms.mapM fun m => (item.ofJson? m.2).map fun v => (m.1, v)
  | .record _ fields, .object ms => fields.collect fields.fill ms
  | .label names, .text s => names.finIdxOf? s
  | .variant _ cases, .object [(name, x)] => cases.ofJson? name x
  | .openRecord _ fields, .object ms =>
    (fields.collect fields.fill (ms.filter fun m => fields.keys.contains m.1)).map fun v =>
      (v, ms.filter fun m => !fields.keys.contains m.1)
  | _, _ => none

/-- The fields that are filled when a member is added to those that were. -/
def Fields.fill : (fields : Fields) → fields.Slots → String → Json → Option fields.Slots
  | .nil, _, _, _ => none
  | .required key shape rest, (slot, slots), name, x =>
    if name = key then fillSlot slot (fun v => (some v, slots)) (shape.ofJson? x)
    else (rest.fill slots name x).map fun slots => (slot, slots)
  | .optional key shape rest, (slot, slots), name, x =>
    if name = key then fillSlot slot (fun v => (some v, slots)) (nullOr (fun x => shape.ofJson? x) x)
    else (rest.fill slots name x).map fun slots => (slot, slots)
  | .listed key item rest, (slot, slots), name, x =>
    if name = key then fillSlot slot (fun v => (some v, slots)) (itemsOf? (fun x => item.ofJson? x) x)
    else (rest.fill slots name x).map fun slots => (slot, slots)

/-- The value of the variant of a name. -/
def Cases.ofJson? : (cases : Cases) → String → Json → Option cases.Val
  | .nil, _, _ => none
  | .cons key fields rest, name, x =>
    if name = key then (members? x).bind fun ms => (fields.collect fields.fill ms).map Sum.inl
    else (rest.ofJson? name x).map Sum.inr

end

/-! ## Simple shapes -/

section

variable {α σ : Type}

theorem reads_textOf (wanted s : String) : Reads (textOf wanted) (.text s) s := by
  intro gap text rest hgap htext hrest
  cases htext
  rw [textOf, skipSpace_append hgap, List.cons_append, List.append_assoc, skipSpace_cons (by decide)]
  exact textBody_escaped s rest

theorem reads_truth (b : Bool) : Reads truth (.bool b) b := by
  intro gap text rest hgap htext hrest
  cases htext <;> rw [truth, skipSpace_append hgap] <;> rfl

theorem reads_signedInteger {n : Int} (h : Machine.fits n = true) : Reads signedInteger (.integer n) n := by
  intro gap text rest hgap htext hrest
  cases htext with
  | integer hmin hmax =>
  simp only [Machine.fits, Bool.and_eq_true, decide_eq_true_eq] at h
  obtain ⟨c, cs, heq, hc⟩ := exists_toString_eq_cons n
  have hread : numeral (c :: (cs ++ rest)) = .ok (.integer n, rest) := by
    rw [← List.cons_append, ← heq]
    exact numeral_toString hmin hmax hrest
  rw [heq, List.cons_append, signedInteger, skipSpace_append hgap, skipSpace_cons (isSpace_of_numeral hc)]
  dsimp only
  rw [if_pos (by simpa using hc), hread]
  simp only [bind, Except.bind, if_pos h.2]
  rfl

theorem reads_listOf {item : Reader α} {xs : List Json} {vs : List α} (h : List.Forall₂ (Reads item) xs vs) :
    Reads (listOf item) (.list xs) vs := by
  intro gap text rest hgap htext hrest
  cases htext with
  | list hcs =>
  rw [listOf, skipSpace_append hgap, List.cons_append, skipSpace_cons (by decide)]
  exact listBody_reads hcs h rest

theorem reads_nullable_null (reader : Reader α) : Reads (nullable reader) .null none := by
  intro gap text rest hgap htext hrest
  cases htext
  rw [nullable, skipSpace_append hgap]
  rfl

theorem reads_nullable {reader : Reader α} {x : Json} {v : α} (hx : x ≠ .null) (h : Reads reader x v) :
    Reads (nullable reader) x (some v) := by
  intro gap text rest hgap htext hrest
  have hread := h blank_nil htext hrest
  obtain ⟨c, cs, rfl, hspace, -, hn⟩ := htext.exists_cons
  rw [nullable, skipSpace_append hgap, List.cons_append, skipSpace_cons hspace]
  rw [List.nil_append, List.cons_append] at hread
  split
  · next heq =>
    cases heq
    exact absurd (hn rfl) hx
  · simp only [bind, Except.bind, pure, Except.pure, hread]

theorem reads_labelOf {names : List String} {s : String} {i : Fin names.length} (h : names.finIdxOf? s = some i) :
    Reads (labelOf names) (.text s) i := by
  intro gap text rest hgap htext hrest
  cases htext
  rw [labelOf, skipSpace_append hgap, List.cons_append, List.append_assoc, skipSpace_cons (by decide)]
  simp only [List.singleton_append, textBody_escaped, labelOf.named, h, bind, Except.bind, pure, Except.pure]

/-- A value is read into a slot that is empty. -/
theorem readsMember_of_fillSlot (key : String) {slot : Option α} {put : α → σ} {reader : Reader α} {x : Json}
    {value : Option α} (hread : ∀ v, value = some v → Reads reader x v) {s : σ}
    (h : fillSlot slot put value = some s) : ReadsMember (intoSlot key slot put reader) x s := by
  cases slot with
  | some _ => cases h
  | none =>
    obtain ⟨v, hv, rfl⟩ := Option.map_eq_some_iff.1 h
    exact Reads.member (hread v hv) put

theorem reads_of_nullOr {reader : Reader α} {value? : Json → Option α} {x : Json}
    (hread : ∀ v, value? x = some v → Reads reader x v) {v : Option α} (h : nullOr value? x = some v) :
    Reads (nullable reader) x v := by
  unfold nullOr at h
  split at h
  · cases h
    exact reads_nullable_null reader
  · next hnull =>
    obtain ⟨w, hw, rfl⟩ := Option.map_eq_some_iff.1 h
    exact reads_nullable hnull (hread w hw)

theorem reads_of_itemsOf? {item : Reader α} {value? : Json → Option α}
    (hitem : ∀ y v depth, value? y = some v → Storable depth y → depth ≤ maxDepth → Reads item y v) {x : Json}
    {vs : List α} (h : itemsOf? value? x = some vs) {depth : Nat} (hx : Storable depth x) (hdepth : depth ≤ maxDepth) :
    Reads (listOf item) x vs := by
  cases hx with
  | list hxs =>
    exact reads_listOf (forall₂_of_mapM (fun y hy v hv =>
      hitem y v _ hv (hxs y hy) (Nat.le_of_succ_le hdepth)) h)
  | _ => cases h

/-! ## Records -/

namespace Fields

variable {key : String} {shape : Shape} {rest : Fields}

/-- Members of the other fields go past the first one, however that one is filled. -/
theorem foldlM_past {α : Type} {fill : α × rest.Slots → String → Json → Option (α × rest.Slots)}
    (hfill : ∀ slot slots name x, name ≠ key →
      fill (slot, slots) name x = (rest.fill slots name x).map fun slots => (slot, slots))
    {ms : List (String × Json)} (hms : key ∉ ms.map (·.1)) (slot : α) (slots : rest.Slots) :
    ms.foldlM (fun slots m => fill slots m.1 m.2) (slot, slots) =
      (ms.foldlM (fun slots m => rest.fill slots m.1 m.2) slots).map fun slots => (slot, slots) := by
  induction ms generalizing slots with
  | nil => rfl
  | cons m ms ih =>
    rw [List.map_cons, List.mem_cons, not_or] at hms
    rw [List.foldlM_cons, List.foldlM_cons, hfill slot slots m.1 m.2 (Ne.symm hms.1)]
    cases rest.fill slots m.1 m.2 with
    | none => rfl
    | some slots' => exact ih hms.2 slots'

/-- A record is made if its first field comes last, behind members that make the rest of it. -/
theorem collect_required (ms : List (String × Json)) (h : key ∉ ms.map (·.1)) {x : Json} {v : shape.Val}
    {w : rest.Val} (hv : shape.ofJson? x = some v) (hw : rest.collect rest.fill ms = some w) :
    (required key shape rest).collect (required key shape rest).fill (ms ++ [(key, x)]) = some (v, w) := by
  obtain ⟨slots, hslots, hfinish⟩ := Option.bind_eq_some_iff.1 hw
  have hall : ms.foldlM (fun slots m => (required key shape rest).fill slots m.1 m.2)
      (required key shape rest).empty = some (none, slots) :=
    (foldlM_past (fun _ _ _ _ hne => if_neg hne) h none rest.empty).trans (congrArg _ hslots)
  have hlast : (required key shape rest).fill (none, slots) key x = some (some v, slots) :=
    (if_pos rfl).trans (congrArg _ hv)
  have hend : ((required key shape rest).finish (some v, slots)).toOption = some (v, w) := by
    show (Except.bind (rest.finish slots) fun w => .ok (v, w)).toOption = _
    rw [eq_ok_of_toOption hfinish]
    rfl
  rw [collect, List.foldlM_append, hall]
  show Option.bind (Option.bind ((required key shape rest).fill (none, slots) key x) some) _ = _
  rw [hlast]
  exact hend

end Fields

/-- An open record is made of the members that fill its fields, and the others stay as they are. -/
theorem Shape.ofJson?_openRecord (wanted : String) {fields : Fields} {ms filling others : List (String × Json)}
    (hfilling : ms.filter (fun m => fields.keys.contains m.1) = filling)
    (hothers : ms.filter (fun m => !fields.keys.contains m.1) = others) {v : fields.Val}
    (hv : fields.collect fields.fill filling = some v) :
    (Shape.openRecord wanted fields).ofJson? (.object ms) = some (v, others) := by
  subst hfilling hothers
  exact congrArg (Option.map fun v => (v, ms.filter fun m => !fields.keys.contains m.1)) hv

/-- A record is read as what its members make when they fill its fields. -/
theorem reads_of_collect {wanted : String} {fields : Fields} {inOrder : Reader fields.Val}
    {ms : List (String × Json)} (hfill : ∀ m ∈ ms, ∀ slots slots', fields.fill slots m.1 m.2 = some slots' →
      ∃ reader, fields.put m.1 slots = some reader ∧ ReadsMember reader m.2 slots') {v : fields.Val}
    (h : fields.collect fields.fill ms = some v) :
    Reads (recordOf wanted fields inOrder fields.put) (.object ms) v := by
  intro gap text rest hgap htext hrest
  obtain ⟨slots, hslots, hv⟩ := Option.bind_eq_some_iff.1 h
  cases htext with
  | @object _ cs hcs =>
  have hall := objectBody_reads (fun name slots => (fields.put name slots).getD (skipMember slots))
    (fun slots m => fields.fill slots m.1 m.2) hcs (fun m hm slots slots' h => by
      obtain ⟨reader, hreader, hread⟩ := hfill m hm slots slots' h
      rw [hreader]
      exact hread) hslots rest
  rw [recordOf, skipSpace_append hgap, List.cons_append, skipSpace_cons (by decide)]
  simp only [bind, Except.bind, pure, Except.pure, hall, eq_ok_of_toOption hv]

/-- An object with one member is read by the reader of that member. -/
theorem reads_variant {title : String} {cases : Cases} {name : String} {x : Json} {v : cases.Val}
    {reader : Reader cases.Val} (hreader : cases.read title name = some reader) (h : Reads reader x v) :
    Reads (Shape.variant title cases).read (.object [(name, x)]) v := by
  intro gap text rest hgap htext hrest
  cases htext with
  | object hcs =>
  cases hcs with
  | @member _ sep gap₁ gap₂ text more _ _ _ hsep hgap₁ hgap₂ hx hmore =>
  cases hsep with
  | first hsep =>
  have hread := h hgap₂ hx (hmore.afterValue rest)
  cases hmore with
  | @close _ gap₃ hgap₃ =>
  have hname : ∀ cs, textOf "variant identifier" (sep ++ '"' :: (escaped name ++ '"' :: cs)) = .ok (name, cs) :=
    fun cs => by
      rw [textOf, skipSpace_append hsep, skipSpace_cons (by decide)]
      exact textBody_escaped name cs
  have hclose : closeChoice (gap₃ ++ '}' :: rest) = .ok rest := by
    rw [closeChoice, skipSpace_append hgap₃, skipSpace_cons (by decide)]
    rfl
  rw [List.append_assoc, List.singleton_append] at hread
  rw [Shape.read]
  dsimp only
  rw [skipSpace_append hgap, List.cons_append, skipSpace_cons (by decide)]
  simp only [List.append_assoc, List.cons_append, List.nil_append, hname, bind, Except.bind, pure, Except.pure, hreader,
    colon_append hgap₁, hread, hclose]

theorem put_eq_none : (fields : Fields) → ∀ {name : String}, name ∉ fields.keys → ∀ slots : fields.Slots,
    fields.put name slots = none
  | .nil, _, _, _ => rfl
  | .required key shape rest, name, h, (slot, slots) => by
    obtain ⟨hkey, hrest⟩ := not_or.1 fun hor => h (List.mem_cons.2 hor)
    rw [Fields.put, if_neg hkey, put_eq_none rest hrest]
    rfl
  | .optional key shape rest, name, h, (slot, slots) => by
    obtain ⟨hkey, hrest⟩ := not_or.1 fun hor => h (List.mem_cons.2 hor)
    rw [Fields.put, if_neg hkey, put_eq_none rest hrest]
    rfl
  | .listed key item rest, name, h, (slot, slots) => by
    obtain ⟨hkey, hrest⟩ := not_or.1 fun hor => h (List.mem_cons.2 hor)
    rw [Fields.put, if_neg hkey, put_eq_none rest hrest]
    rfl

/-- The fields that one more member fills, or else the member itself. -/
def Fields.fillOrKeep (fields : Fields) (state : fields.Slots × List (String × Json)) (m : String × Json) :
    Option (fields.Slots × List (String × Json)) :=
  if fields.keys.contains m.1 then (fields.fill state.1 m.1 m.2).map fun slots => (slots, state.2)
  else some (state.1, m :: state.2)

/-- Members that fill fields and members that are kept do not get in each other's way. -/
theorem foldlM_fillOrKeep {fields : Fields} {ms : List (String × Json)} {slots slots' : fields.Slots}
    (h : (ms.filter fun m => fields.keys.contains m.1).foldlM (fun slots m => fields.fill slots m.1 m.2) slots =
      some slots') (kept : List (String × Json)) :
    ms.foldlM fields.fillOrKeep (slots, kept) =
      some (slots', (ms.filter fun m => !fields.keys.contains m.1).reverse ++ kept) := by
  induction ms generalizing slots kept with
  | nil =>
    cases h
    rfl
  | cons m ms ih =>
    rw [List.foldlM_cons, Fields.fillOrKeep]
    by_cases hkey : fields.keys.contains m.1 = true
    · simp only [List.filter_cons, hkey, if_true, List.foldlM_cons] at h
      obtain ⟨slots₁, hfill, h⟩ := Option.bind_eq_some_iff.1 h
      simp only [List.filter_cons, hkey, if_true, Bool.not_true, Bool.false_eq_true, if_false, hfill]
      exact ih h kept
    · rw [Bool.not_eq_true] at hkey
      simp only [List.filter_cons, hkey, Bool.false_eq_true, if_false] at h
      simp only [List.filter_cons, hkey, Bool.not_false, if_true, Bool.false_eq_true, if_false, List.reverse_cons,
        List.append_assoc]
      exact ih h (m :: kept)

/-- Reads a member into its field, or else puts it in front of the members that were kept. -/
def Fields.takeMember (fields : Fields) (name : String) (state : fields.Slots × List (String × Json)) :
    Reader (fields.Slots × List (String × Json)) := fun cs =>
  let (slots, kept) := state
  match fields.put name slots with
  | some reader => do
    let (slots, rest) ← reader cs
    return ((slots, kept), rest)
  | none => do
    let (x, rest) ← anyValue (maxDepth - 1) (← colon cs)
    return ((slots, (name, x) :: kept), rest)

theorem readsMember_takeMember {fields : Fields} {m : String × Json}
    (hfill : ∀ slots slots', fields.fill slots m.1 m.2 = some slots' →
      ∃ reader, fields.put m.1 slots = some reader ∧ ReadsMember reader m.2 slots')
    (hkeep : Reads (anyValue (maxDepth - 1)) m.2 m.2) {state state' : fields.Slots × List (String × Json)}
    (h : fields.fillOrKeep state m = some state') : ReadsMember (fields.takeMember m.1 state) m.2 state' := by
  obtain ⟨slots, kept⟩ := state
  rw [Fields.fillOrKeep] at h
  unfold Fields.takeMember
  split at h
  · obtain ⟨slots', hslots', rfl⟩ := Option.map_eq_some_iff.1 h
    obtain ⟨reader, hreader, hread⟩ := hfill slots slots' hslots'
    simp only [hreader]
    intro gap gap' text rest hgap hgap' htext hrest
    simp only [bind, Except.bind, hread hgap hgap' htext hrest, pure, Except.pure]
  · next hkey =>
    cases h
    simp only [put_eq_none fields (by simpa using hkey) slots]
    exact Reads.member hkeep fun x => (slots, (m.1, x) :: kept)

theorem Shape.read_openRecord (wanted : String) (fields : Fields) {gap : List Char} (hgap : Blank gap)
    (cs : List Char) :
    (Shape.openRecord wanted fields).read (gap ++ '{' :: cs) = do
      let ((slots, kept), rest) ← objectBody fields.takeMember (fields.empty, []) cs
      return ((← fields.finish slots, kept.reverse), rest) := by
  rw [Shape.read]
  dsimp only
  rw [skipSpace_append hgap, skipSpace_cons (by decide)]
  rfl

/-- What an open record is read as: its fields as they are filled, and the other members as they are. -/
theorem reads_openRecord {wanted : String} {fields : Fields} {ms : List (String × Json)}
    (hfill : ∀ m ∈ ms, ∀ slots slots', fields.fill slots m.1 m.2 = some slots' →
      ∃ reader, fields.put m.1 slots = some reader ∧ ReadsMember reader m.2 slots')
    (hkeep : ∀ m ∈ ms, Reads (anyValue (maxDepth - 1)) m.2 m.2) {v : fields.Val}
    (h : fields.collect fields.fill (ms.filter fun m => fields.keys.contains m.1) = some v) :
    Reads (Shape.openRecord wanted fields).read (.object ms)
      (v, ms.filter fun m => !fields.keys.contains m.1) := by
  intro gap text rest hgap htext hrest
  obtain ⟨slots, hslots, hv⟩ := Option.bind_eq_some_iff.1 h
  cases htext with
  | object hcs =>
  have hall := objectBody_reads fields.takeMember fields.fillOrKeep hcs
    (fun m hm state state' => readsMember_takeMember (hfill m hm) (hkeep m hm)) (foldlM_fillOrKeep hslots []) rest
  rw [List.cons_append, Shape.read_openRecord wanted fields hgap, hall]
  simp only [bind, Except.bind, pure, Except.pure, eq_ok_of_toOption hv, List.append_nil, List.reverse_reverse]

theorem Shape.read_dict (item : Shape) {gap : List Char} (hgap : Blank gap) (cs : List Char) :
    (Shape.dict item).read (gap ++ '{' :: cs) = do
      let (ms, rest) ← objectBody (collectMember item.read) [] cs
      return (ms.reverse, rest) := by
  rw [Shape.read]
  dsimp only
  rw [skipSpace_append hgap, skipSpace_cons (by decide)]
  rfl

/-- What a map is read as. -/
theorem reads_dict {item : Shape} {ms : List (String × Json)} {vs : List (String × item.Val)}
    (hitem : ∀ m ∈ ms, ∀ v, item.ofJson? m.2 = some v → Reads item.read m.2 v)
    (h : ms.mapM (fun m => (item.ofJson? m.2).map fun v => (m.1, v)) = some vs) :
    Reads (Shape.dict item).read (.object ms) vs := by
  intro gap text rest hgap htext hrest
  cases htext with
  | object hcs =>
  rw [List.cons_append, Shape.read_dict item hgap, objectBody_collectMember hcs hitem h rest]
  simp only [bind, Except.bind, pure, Except.pure, List.reverse_reverse]

/-- A field that is read behind others leaves them as they were. -/
theorem ReadsMember.behind {reader : Reader σ} {x : Json} {s : σ} (h : ReadsMember reader x s) (slot : α) :
    ReadsMember (fun cs => do
      let (slots, cs) ← reader cs
      return ((slot, slots), cs)) x (slot, s) := by
  intro gap gap' text rest hgap hgap' htext hrest
  simp only [bind, Except.bind, h hgap hgap' htext hrest, pure, Except.pure]

/-- A member is read into the first field, if it has its name, and else into the others. -/
theorem readsMember_of_fillFirst {key name : String} {slot value : Option α} {slots : σ} {reader : Reader α}
    {filled : Option σ} {put : Option (Reader σ)} {x : Json} (hfirst : ∀ v, value = some v → Reads reader x v)
    (hrest : ∀ slots', filled = some slots' → ∃ reader, put = some reader ∧ ReadsMember reader x slots')
    {slots' : Option α × σ}
    (h : (if name = key then fillSlot slot (fun v => (some v, slots)) value
      else filled.map fun slots => (slot, slots)) = some slots') :
    ∃ member, (if name = key then some (intoSlot key slot (fun v => (some v, slots)) reader)
      else put.map fun reader cs => do
        let (slots, cs) ← reader cs
        return ((slot, slots), cs)) = some member ∧ ReadsMember member x slots' := by
  by_cases hname : name = key
  · rw [if_pos hname] at h ⊢
    exact ⟨_, rfl, readsMember_of_fillSlot key hfirst h⟩
  · rw [if_neg hname] at h ⊢
    obtain ⟨slots₁, hfill, rfl⟩ := Option.map_eq_some_iff.1 h
    obtain ⟨reader, hreader, hread⟩ := hrest slots₁ hfill
    rw [hreader]
    exact ⟨_, rfl, hread.behind slot⟩

end

/-! ## All shapes -/

mutual

/-- **Reading agrees with looking at the value**, for every shape. -/
theorem Shape.reads_of_ofJson? : (shape : Shape) → ∀ {x : Json} {v : shape.Val} {depth : Nat},
    shape.ofJson? x = some v → Storable depth x → depth ≤ maxDepth → Reads shape.read x v
  | .text wanted, x, v, depth, h, hx, hdepth => by
    cases x with
    | text s =>
      obtain rfl : s = v := Option.some.inj h
      exact reads_textOf wanted s
    | _ => cases h
  | .flag, x, v, depth, h, hx, hdepth => by
    cases x with
    | bool b =>
      obtain rfl : b = v := Option.some.inj h
      exact reads_truth b
    | _ => cases h
  | .signed, x, v, depth, h, hx, hdepth => by
    cases x with
    | integer n =>
      obtain ⟨hfits, rfl⟩ := Machine.check_eq_some_iff.1 h
      exact reads_signedInteger hfits
    | _ => cases h
  | .list item, x, v, depth, h, hx, hdepth => by
    exact reads_of_itemsOf? (fun y w depth hw hy hdepth => item.reads_of_ofJson? hw hy hdepth) h hx hdepth
  | .dict item, x, v, depth, h, hx, hdepth => by
    cases x with
    | object ms =>
      cases hx with
      | object hms =>
      exact reads_dict (fun m hm w hw => item.reads_of_ofJson? hw (hms m hm) (Nat.le_of_succ_le hdepth)) h
    | _ => cases h
  | .record wanted fields, x, v, depth, h, hx, hdepth => by
    cases x with
    | object ms =>
      cases hx with
      | object hms =>
      exact reads_of_collect (fun m hm slots slots' hfill =>
        fields.readsMember_of_fill hfill (hms m hm) (Nat.le_of_succ_le hdepth)) h
    | _ => cases h
  | .label names, x, v, depth, h, hx, hdepth => by
    cases x with
    | text s => exact reads_labelOf h
    | _ => cases h
  | .variant title cases, x, v, depth, h, hx, hdepth => by
    cases x with
    | object ms =>
      cases hx with
      | object hms =>
      match ms with
      | [(name, x)] =>
        obtain ⟨reader, hreader, hread⟩ := cases.reads_of_ofJson? title h
          (hms (name, x) (List.mem_singleton_self _)) (Nat.le_of_succ_le hdepth)
        exact reads_variant hreader hread
      | [] => cases h
      | _ :: _ :: _ => cases h
    | _ => cases h
  | .openRecord wanted fields, x, v, depth, h, hx, hdepth => by
    cases x with
    | object ms =>
      cases hx with
      | object hms =>
      obtain ⟨w, hw, rfl⟩ := Option.map_eq_some_iff.1 h
      exact reads_openRecord (fun m hm slots slots' hfill =>
        fields.readsMember_of_fill hfill (hms m hm) (Nat.le_of_succ_le hdepth))
        (fun m hm => reads_anyValue ((hms m hm).mono (Nat.le_sub_one_of_lt hdepth))) hw
    | _ => cases h

/-- A member is read into the fields as it fills them. -/
theorem Fields.readsMember_of_fill : (fields : Fields) → ∀ {slots slots' : fields.Slots} {name : String} {x : Json}
    {depth : Nat}, fields.fill slots name x = some slots' → Storable depth x → depth ≤ maxDepth →
      ∃ reader, fields.put name slots = some reader ∧ ReadsMember reader x slots'
  | .nil, slots, slots', name, x, depth, h, hx, hdepth => nomatch h
  | .required key shape rest, (slot, slots), slots', name, x, depth, h, hx, hdepth => by
    rw [Fields.put]
    exact readsMember_of_fillFirst (fun v hv => shape.reads_of_ofJson? hv hx hdepth)
      (fun _ hfill => rest.readsMember_of_fill hfill hx hdepth) h
  | .optional key shape rest, (slot, slots), slots', name, x, depth, h, hx, hdepth => by
    rw [Fields.put]
    exact readsMember_of_fillFirst (fun v hv => reads_of_nullOr (fun w hw => shape.reads_of_ofJson? hw hx hdepth) hv)
      (fun _ hfill => rest.readsMember_of_fill hfill hx hdepth) h
  | .listed key item rest, (slot, slots), slots', name, x, depth, h, hx, hdepth => by
    rw [Fields.put]
    exact readsMember_of_fillFirst (fun v hv => reads_of_itemsOf?
      (fun y w depth hw hy hdepth => item.reads_of_ofJson? hw hy hdepth) hv hx hdepth)
      (fun _ hfill => rest.readsMember_of_fill hfill hx hdepth) h

/-- The same for the variant of a name. -/
theorem Cases.reads_of_ofJson? : (cases : Cases) → ∀ (title : String) {name : String} {x : Json} {v : cases.Val} {depth : Nat},
    cases.ofJson? name x = some v → Storable depth x → depth ≤ maxDepth →
      ∃ reader, cases.read title name = some reader ∧ Reads reader x v
  | .nil, title, name, x, v, depth, h, hx, hdepth => nomatch h
  | .cons key fields rest, title, name, x, v, depth, h, hx, hdepth => by
    rw [Cases.ofJson?] at h
    rw [Cases.read]
    split at h
    · next hname =>
      rw [if_pos hname]
      cases hx with
      | @object depth ms hms =>
        obtain ⟨w, hw, rfl⟩ := Option.map_eq_some_iff.1 h
        have hread (wanted : String) (inOrder : Reader fields.Val) :
            Reads (recordOf wanted fields inOrder fields.put) (.object ms) w :=
          reads_of_collect (fun m hm slots slots' hfill =>
            fields.readsMember_of_fill hfill (hms m hm) (Nat.le_of_succ_le hdepth)) hw
        refine ⟨_, rfl, fun hgap htext hrest => ?_⟩
        simp only [bind, Except.bind, pure, Except.pure, hread _ _ hgap htext hrest]
      | _ => cases h
    · next hname =>
      obtain ⟨w, hw, rfl⟩ := Option.map_eq_some_iff.1 h
      obtain ⟨reader, hreader, hread⟩ := rest.reads_of_ofJson? title hw hx hdepth
      rw [if_neg hname, hreader]
      refine ⟨_, rfl, fun hgap htext hrest => ?_⟩
      simp only [bind, Except.bind, pure, Except.pure, hread hgap htext hrest]

end

end LintDelta.Json
