import LintDelta.Proofs.Json.Documents
import LintDelta.Proofs.Json.Shapes
import LintDelta.Proofs.Partial

/-!
# Looking at documents

The value that a document has in a shape (`Shape.ofDoc?`), for the shapes of reports. What a record is made of does not
depend on the order of the members: each field is what stands under its name, once or not at all, and members with
other names do not count (`Fields.ofMembers?`). A reader takes the members one after another and keeps what it has in
slots; it comes to the same (`Fields.collect_take`).
-/

namespace LintDelta.Json

/-! ## Members by name -/

namespace Doc

/-- Members, their names with the characters that they stand for. -/
abbrev MemberList := List (Option String × Doc)

/-- The values under a name. -/
def under (key : String) (ms : MemberList) : List Doc :=
  (ms.filter fun m => m.1 = some key).map (·.2)

/-- Whether all names stand for characters. -/
def legible (ms : MemberList) : Bool :=
  ms.all fun m => m.1.isSome

variable {α : Type}

/-- The characters of a text, if it stands for any. -/
def text? : Doc → Option String
  | .text s => s
  | _ => none

theorem text?_eq_some_iff {x : Doc} {s : String} : x.text? = some s ↔ x = .text (some s) := by
  cases x <;> simp [text?]

/-- The items of a list. -/
def list? : Doc → Option (List Doc)
  | .list xs => some xs
  | _ => none

/-- The items of a list, if each has a value. -/
def itemsOf? (value? : Doc → Option α) : Doc → Option (List α)
  | .list xs => xs.mapM value?
  | _ => none

/-- `null`, or a value. -/
def nullOr (value? : Doc → Option α) : Doc → Option (Option α)
  | .null => some none
  | x => (value? x).map some

/-- The value of what stands under a name: another one if nothing does, and none if it stands there twice. -/
def once (missing : Option α) (value? : Doc → Option α) : List Doc → Option α
  | [] => missing
  | [x] => value? x
  | _ => none

theorem once_none_eq_some_iff {value? : Doc → Option α} {xs : List Doc} {v : α} :
    once none value? xs = some v ↔ ∃ x, xs = [x] ∧ value? x = some v := by
  rcases xs with _ | ⟨x, _ | ⟨y, xs⟩⟩ <;> simp [once]

/-- The value of what stands under a name of an object. -/
def at? (missing : Option α) (value? : Doc → Option α) (key : String) : Doc → Option α
  | .object ms => if legible ms then once missing value? (under key ms) else none
  | _ => none

/-- The text under a name, which must be there. -/
def textAt? (key : String) : Doc → Option String :=
  at? none text? key

/-- The text under a name, if there is one that is not `null`. -/
def optionalTextAt? (key : String) : Doc → Option (Option String) :=
  at? (some none) (nullOr text?) key

/-- The list under a name; an empty one if there is none. -/
def listAt? (key : String) : Doc → Option (List Doc) :=
  at? (some []) list? key

/-- The lists under a name of several objects, one after another. -/
def listsAt? (key : String) (xs : List Doc) : Option (List Doc) :=
  (xs.mapM (listAt? key)).map List.flatten

end Doc

open Doc (MemberList)

mutual

/-- The value that a document has in a shape. -/
def Shape.ofDoc? : (shape : Shape) → Doc → Option shape.Val
  | .text _, x => x.text?
  | .list item, x => x.itemsOf? fun x => item.ofDoc? x
  | .record _ fields, .object ms => if Doc.legible ms then fields.ofMembers? ms else none
  | .record _ fields, .list xs => fields.ofItems? xs
  | _, _ => none

/-- The record of the members of an object. -/
def Fields.ofMembers? : (fields : Fields) → MemberList → Option fields.Val
  | .nil, _ => some ()
  | .required key shape rest, ms =>
    (Doc.once none (fun x => shape.ofDoc? x) (Doc.under key ms)).bind fun v => (rest.ofMembers? ms).map (v, ·)
  | .optional key shape rest, ms =>
    (Doc.once (some none) (Doc.nullOr fun x => shape.ofDoc? x) (Doc.under key ms)).bind fun v =>
      (rest.ofMembers? ms).map (v, ·)
  | .listed key item rest, ms =>
    (Doc.once (some []) (Doc.itemsOf? fun x => item.ofDoc? x) (Doc.under key ms)).bind fun v =>
      (rest.ofMembers? ms).map (v, ·)

/-- The record of the items of a list, which may end where only fields are left that count as empty. -/
def Fields.ofItems? : (fields : Fields) → List Doc → Option fields.Val
  | .nil, [] => some ()
  | .required _ shape rest, x :: xs => (shape.ofDoc? x).bind fun v => (rest.ofItems? xs).map (v, ·)
  | .optional _ shape rest, x :: xs =>
    (Doc.nullOr (fun x => shape.ofDoc? x) x).bind fun v => (rest.ofItems? xs).map (v, ·)
  | .listed _ _ rest, [] => (rest.ofItems? []).map ([], ·)
  | .listed _ item rest, x :: xs =>
    (Doc.itemsOf? (fun x => item.ofDoc? x) x).bind fun v => (rest.ofItems? xs).map (v, ·)
  | _, _ => none

end

mutual

/-- Whether a shape consists of texts, lists and records no two fields of which share a name. -/
def Shape.isReport : Shape → Bool
  | .text _ => true
  | .list item => item.isReport
  | .record _ fields => fields.isReport
  | _ => false

def Fields.isReport : Fields → Bool
  | .nil => true
  | .required key shape rest => !rest.keys.contains key && (shape.isReport && rest.isReport)
  | .optional key shape rest => !rest.keys.contains key && (shape.isReport && rest.isReport)
  | .listed key item rest => !rest.keys.contains key && (item.isReport && rest.isReport)

end

theorem Fields.isReport_parts {key : String} {shape : Shape} {rest : Fields}
    (h : (!rest.keys.contains key && (shape.isReport && rest.isReport)) = true) :
    key ∉ rest.keys ∧ shape.isReport = true ∧ rest.isReport = true := by
  simpa using h

/-! ## Slots -/

/-- Adds a member whose name stands for characters to what was read before. -/
def named {σ : Type} (step : σ → String → Doc → Option σ) (s : σ) (m : Option String × Doc) : Option σ :=
  m.1.bind fun name => step s name m.2

section

variable {α τ : Type}

/-- What a member does to the slot of a field: it fills an empty one if it has the field's name. -/
def takeSlot (key : String) (value? : Doc → Option α) (slot : Option α) (name : String) (x : Doc) :
    Option (Option α) :=
  if name = key then fillSlot slot some (value? x) else some slot

/-- What a member does to the slot of a field in front of others: it goes past a field with another name. -/
def takePair (key : String) (value? : Doc → Option α) (takeRest : τ → String → Doc → Option τ) (slots : Option α × τ)
    (name : String) (x : Doc) : Option (Option α × τ) :=
  if name = key then fillSlot slots.1 (fun v => (some v, slots.2)) (value? x)
  else (takeRest slots.2 name x).map (slots.1, ·)

section

variable (key : String) (value? : Doc → Option α)

/-- **What members do to a slot**: an empty one is filled by the only member with the name, and a filled one stays if
there is none. By induction on the members. -/
theorem foldlM_takeSlot (ms : MemberList) (slot : Option α) :
    ms.foldlM (named (takeSlot key value?)) slot =
      if Doc.legible ms then
        match slot, Doc.under key ms with
        | slot, [] => some slot
        | none, [x] => (value? x).map some
        | _, _ => none
      else none := by
  induction ms generalizing slot with
  | nil => cases slot <;> rfl
  | cons m ms ih =>
    obtain ⟨name, x⟩ := m
    rw [List.foldlM_cons]
    cases name with
    | none => rfl
    | some name =>
      have hlegible : Doc.legible ((some name, x) :: ms) = Doc.legible ms := rfl
      show (takeSlot key value? slot name x).bind _ = _
      rw [hlegible, takeSlot]
      by_cases hname : name = key
      · have hunder : Doc.under key ((some name, x) :: ms) = x :: Doc.under key ms := by simp [Doc.under, hname]
        rw [if_pos hname, hunder]
        cases slot with
        | some v => simp [fillSlot]
        | none =>
          cases hvalue : value? x with
          | none => cases Doc.under key ms <;> simp [fillSlot, hvalue]
          | some v => cases hms : Doc.under key ms <;> simp [fillSlot, hvalue, ih, hms]
      · have hunder : Doc.under key ((some name, x) :: ms) = Doc.under key ms := by simp [Doc.under, hname]
        rw [if_neg hname, hunder]
        exact ih slot

variable {takeRest : τ → String → Doc → Option τ} (hrest : ∀ slots x, takeRest slots key x = some slots)
include hrest

/-- The first field and the others do not get in each other's way. -/
theorem named_takePair (slot : Option α) (slots : τ) (m : Option String × Doc) :
    named (takePair key value? takeRest) (slot, slots) m =
      (named (takeSlot key value?) slot m).bind fun slot => (named takeRest slots m).map (slot, ·) := by
  obtain ⟨name, x⟩ := m
  cases name with
  | none => rfl
  | some name =>
    show takePair key value? takeRest (slot, slots) name x =
      (takeSlot key value? slot name x).bind fun slot => (takeRest slots name x).map (slot, ·)
    by_cases hname : name = key
    · subst hname
      rw [takePair, takeSlot, if_pos rfl, if_pos rfl, hrest]
      cases slot with
      | some v => rfl
      | none => cases value? x <;> rfl
    · rw [takePair, takeSlot, if_neg hname, if_neg hname]
      rfl

theorem foldlM_takePair (ms : MemberList) (slot : Option α) (slots : τ) :
    ms.foldlM (named (takePair key value? takeRest)) (slot, slots) =
      (ms.foldlM (named (takeSlot key value?)) slot).bind fun slot =>
        (ms.foldlM (named takeRest) slots).map (slot, ·) := by
  induction ms generalizing slot slots with
  | nil => rfl
  | cons m ms ih =>
    simp only [List.foldlM_cons, named_takePair key value? hrest]
    cases named (takeSlot key value?) slot m with
    | none => rfl
    | some slot' =>
      cases named takeRest slots m with
      | none =>
        show none = (ms.foldlM (named (takeSlot key value?)) slot').bind fun _ => none
        cases ms.foldlM (named (takeSlot key value?)) slot' <;> rfl
      | some slots' => exact ih slot' slots'

/-- **A record is made** of what stands under the name of its first field and of the rest of it. -/
theorem collect_takePair {β : Type} (missing : Option α) {finish : τ → Option β} {ms : MemberList} {slots : τ}
    {rest? : Option β}
    (h : (ms.foldlM (named takeRest) slots).bind finish = if Doc.legible ms then rest? else none) :
    (ms.foldlM (named (takePair key value? takeRest)) (none, slots)).bind
        (fun slots => (slots.1.or missing).bind fun v => (finish slots.2).map (v, ·)) =
      if Doc.legible ms then
        (Doc.once missing value? (Doc.under key ms)).bind fun v => rest?.map (v, ·)
      else none := by
  -- the slot is looked at first; what becomes of the others is `h`
  have hall : ∀ slot? : Option (Option α),
      (slot?.bind fun slot => (ms.foldlM (named takeRest) slots).map (slot, ·)).bind
          (fun slots => (slots.1.or missing).bind fun v => (finish slots.2).map (v, ·)) =
        (slot?.bind (·.or missing)).bind fun v => (if Doc.legible ms then rest? else none).map (v, ·) := by
    intro slot?
    rw [← h]
    cases slot? with
    | none => rfl
    | some slot =>
      cases ms.foldlM (named takeRest) slots with
      | none => simp
      | some slots' => rfl
  rw [foldlM_takePair key value? hrest, hall, foldlM_takeSlot]
  cases Doc.legible ms with
  | false => rfl
  | true =>
    match Doc.under key ms with
    | [] => rfl
    | [x] =>
      simp only [if_true, Doc.once]
      cases value? x <;> rfl
    | _ :: _ :: _ => rfl

end

end

theorem toOption_pair {α β : Type} (v : α) (r : Except Error β) :
    (do return (v, ← r) : Except Error (α × β)).toOption = r.toOption.map (v, ·) := by
  cases r <;> rfl

namespace Fields

/-- What a member does to the fields that were read so far. -/
def take : (fields : Fields) → fields.Slots → String → Doc → Option fields.Slots
  | .nil, slots, _, _ => some slots
  | .required key shape rest, slots, name, x =>
    takePair key (fun x => shape.ofDoc? x) (fun slots name x => rest.take slots name x) slots name x
  | .optional key shape rest, slots, name, x =>
    takePair key (Doc.nullOr fun x => shape.ofDoc? x) (fun slots name x => rest.take slots name x) slots name x
  | .listed key item rest, slots, name, x =>
    takePair key (Doc.itemsOf? fun x => item.ofDoc? x) (fun slots name x => rest.take slots name x) slots name x

theorem take_of_not_mem : (fields : Fields) → ∀ {name : String}, name ∉ fields.keys → ∀ (slots : fields.Slots) (x : Doc),
    fields.take slots name x = some slots
  | .nil, _, _, _, _ => rfl
  | .required key shape rest, name, h, (slot, slots), x => by
    obtain ⟨hkey, hrest⟩ := not_or.1 fun hor => h (List.mem_cons.2 hor)
    exact (if_neg hkey).trans (congrArg _ (take_of_not_mem rest hrest slots x))
  | .optional key shape rest, name, h, (slot, slots), x => by
    obtain ⟨hkey, hrest⟩ := not_or.1 fun hor => h (List.mem_cons.2 hor)
    exact (if_neg hkey).trans (congrArg _ (take_of_not_mem rest hrest slots x))
  | .listed key item rest, name, h, (slot, slots), x => by
    obtain ⟨hkey, hrest⟩ := not_or.1 fun hor => h (List.mem_cons.2 hor)
    exact (if_neg hkey).trans (congrArg _ (take_of_not_mem rest hrest slots x))

/-- **The members of an object make the record** that looking at them gives, in whatever order they come. -/
theorem collect_take : (fields : Fields) → fields.isReport = true → ∀ ms : MemberList,
    (ms.foldlM (named fields.take) fields.empty).bind (fun slots => (fields.finish slots).toOption) =
      if Doc.legible ms then fields.ofMembers? ms else none
  | .nil, _, ms => by
    induction ms with
    | nil => rfl
    | cons m ms ih =>
      obtain ⟨name, x⟩ := m
      cases name with
      | none => rfl
      | some name => exact ih
  | .required key shape rest, h, ms => by
    obtain ⟨hkey, -, hrest⟩ := isReport_parts h
    have hfinish : ∀ slots : (required key shape rest).Slots, ((required key shape rest).finish slots).toOption =
        (slots.1.or none).bind fun v => ((rest.finish slots.2).toOption).map (v, ·) := by
      rintro ⟨slot, slots⟩
      cases slot with
      | none => rfl
      | some v => exact toOption_pair v (rest.finish slots)
    rw [funext hfinish]
    exact collect_takePair key _ (take_of_not_mem rest hkey) none (collect_take rest hrest ms)
  | .optional key shape rest, h, ms => by
    obtain ⟨hkey, -, hrest⟩ := isReport_parts h
    have hfinish : ∀ slots : (optional key shape rest).Slots, ((optional key shape rest).finish slots).toOption =
        (slots.1.or (some none)).bind fun v => ((rest.finish slots.2).toOption).map (v, ·) := by
      rintro ⟨slot, slots⟩
      cases slot <;> exact toOption_pair _ (rest.finish slots)
    rw [funext hfinish]
    exact collect_takePair key _ (take_of_not_mem rest hkey) (some none) (collect_take rest hrest ms)
  | .listed key item rest, h, ms => by
    obtain ⟨hkey, -, hrest⟩ := isReport_parts h
    have hfinish : ∀ slots : (listed key item rest).Slots, ((listed key item rest).finish slots).toOption =
        (slots.1.or (some [])).bind fun v => ((rest.finish slots.2).toOption).map (v, ·) := by
      rintro ⟨slot, slots⟩
      cases slot <;> exact toOption_pair _ (rest.finish slots)
    rw [funext hfinish]
    exact collect_takePair key _ (take_of_not_mem rest hkey) (some []) (collect_take rest hrest ms)

end Fields

/-! ## Fields of objects -/

theorem guarded_pair {α β : Type} (b : Bool) (v? : Option α) (w? : Option β) :
    (if b then v?.bind fun v => w?.map (v, ·) else none) =
      (if b then v? else none).bind fun v => (if b then w? else none).map (v, ·) := by
  cases b <;> rfl

namespace Shape

variable (wanted key : String) (rest : Fields) (ms : MemberList)

theorem ofDoc?_nil : (record wanted .nil).ofDoc? (.object ms) = if Doc.legible ms then some () else none :=
  rfl

theorem ofDoc?_required (shape : Shape) :
    (record wanted (.required key shape rest)).ofDoc? (.object ms) =
      ((Doc.object ms).at? none (fun x => shape.ofDoc? x) key).bind fun v =>
        ((record wanted rest).ofDoc? (.object ms)).map (v, ·) :=
  guarded_pair _ _ _

theorem ofDoc?_optional (shape : Shape) :
    (record wanted (.optional key shape rest)).ofDoc? (.object ms) =
      ((Doc.object ms).at? (some none) (Doc.nullOr fun x => shape.ofDoc? x) key).bind fun v =>
        ((record wanted rest).ofDoc? (.object ms)).map (v, ·) :=
  guarded_pair _ _ _

theorem ofDoc?_listed (item : Shape) :
    (record wanted (.listed key item rest)).ofDoc? (.object ms) =
      ((Doc.object ms).at? (some []) (Doc.itemsOf? fun x => item.ofDoc? x) key).bind fun v =>
        ((record wanted rest).ofDoc? (.object ms)).map (v, ·) :=
  guarded_pair _ _ _

/-- Behind the last field of a record nothing is left to read. -/
theorem at?_last {α : Type} (missing : Option α) (value? : Doc → Option α) :
    (((Doc.object ms).at? missing value? key).bind fun v =>
        ((record wanted .nil).ofDoc? (.object ms)).map (v, ·)) =
      ((Doc.object ms).at? missing value? key).map (·, ()) := by
  rw [ofDoc?_nil, Doc.at?]
  cases Doc.legible ms with
  | false => rfl
  | true => cases Doc.once missing value? (Doc.under key ms) <;> rfl

end Shape

theorem Doc.at?_itemsOf? {α : Type} (value? : Doc → Option α) {key : String} {x : Doc} {xs : List Doc}
    (h : x.listAt? key = some xs) : x.at? (some []) (itemsOf? value?) key = xs.mapM value? := by
  cases x with
  | object ms =>
    rw [listAt?, at?] at h
    rw [at?]
    cases hlegible : legible ms with
    | false =>
      rw [hlegible] at h
      cases h
    | true =>
      rw [hlegible, if_pos rfl] at h
      rw [if_pos rfl]
      match hunder : under key ms, h with
      | [], h =>
        cases h
        rfl
      | [y], h =>
        cases y with
        | list ys =>
          cases h
          rfl
        | _ => cases h
      | _ :: _ :: _, h => cases h
  | _ => cases h

/-- A record whose only field is a list is what the items of the list are. -/
theorem Shape.ofDoc?_of_listAt? (wanted : String) (item : Shape) {key : String} {x : Doc} {xs : List Doc}
    (h : x.listAt? key = some xs) :
    (record wanted (.listed key item .nil)).ofDoc? x = (xs.mapM fun x => item.ofDoc? x).map (·, ()) := by
  cases x with
  | object ms => rw [ofDoc?_listed, at?_last, Doc.at?_itemsOf? _ h]
  | _ => cases h

theorem Shape.ofDoc?_of_list? (item : Shape) {x : Doc} {xs : List Doc} (h : x.list? = some xs) :
    (list item).ofDoc? x = xs.mapM fun x => item.ofDoc? x := by
  cases x with
  | list ys =>
    cases h
    rfl
  | _ => cases h

/-! ## How long a document is -/

/-- Every spelling of a document takes so many characters. -/
def Doc.Takes (n : Nat) (x : Doc) : Prop :=
  ∀ text, x.Spells text → n ≤ text.length

theorem Items.sum_le_length {α : Type} {R : α → List Char → Prop} {f : α → Nat} {first : Bool} {xs : List α}
    {cs : List Char} (h : Items R first xs cs) (hf : ∀ x ∈ xs, ∀ text, R x text → f x ≤ text.length) :
    (xs.map f).sum ≤ cs.length := by
  induction h with
  | close => exact Nat.zero_le _
  | item _ hx _ ih =>
    have hhead := hf _ List.mem_cons_self _ hx
    have htail := ih fun y hy => hf y (List.mem_cons_of_mem _ hy)
    simp only [List.map_cons, List.sum_cons, List.length_append]
    omega

theorem Doc.Members.exists_spells {R : Doc → List Char → Prop} {first : Bool} {ms : MemberList} {cs : List Char}
    (h : Doc.Members R first ms cs) {m : Option String × Doc} (hm : m ∈ ms) :
    ∃ text, R m.2 text ∧ text.length ≤ cs.length := by
  induction h with
  | close => cases hm
  | member _ _ _ _ hx _ ih =>
    simp only [List.length_append, List.length_cons]
    rcases List.mem_cons.1 hm with rfl | hm
    · exact ⟨_, hx, by omega⟩
    · obtain ⟨text, htext, hle⟩ := ih hm
      exact ⟨text, htext, by omega⟩

namespace Doc

theorem takes_one (x : Doc) : x.Takes 1 := by
  intro text h
  obtain ⟨c, cs, rfl, -⟩ := h.exists_cons
  simp

theorem takes_list {f : Doc → Nat} {xs : List Doc} (h : ∀ x ∈ xs, x.Takes (f x)) :
    (Doc.list xs).Takes (xs.map f).sum := by
  intro text htext
  cases htext with
  | list hcs =>
  have := hcs.sum_le_length h
  rw [List.length_cons]
  omega

theorem takes_of_mem {n : Nat} {m : Option String × Doc} {ms : MemberList} (hm : m ∈ ms) (h : m.2.Takes n) :
    (Doc.object ms).Takes n := by
  intro text htext
  cases htext with
  | object hcs =>
  obtain ⟨text', htext', hle⟩ := hcs.exists_spells hm
  have := h text' htext'
  rw [List.length_cons]
  omega

/-- What stands under a name of an object: the value of a member, or what counts if there is none. -/
theorem exists_of_at? {α : Type} {missing : Option α} {value? : Doc → Option α} {key : String} {x : Doc} {v : α}
    (h : x.at? missing value? key = some v) :
    ∃ ms, x = .object ms ∧ (missing = some v ∨ ∃ m ∈ ms, value? m.2 = some v) := by
  cases x with
  | object ms =>
    refine ⟨ms, rfl, ?_⟩
    rw [at?] at h
    split at h
    · unfold once at h
      split at h
      · exact Or.inl h
      · next y hy =>
        obtain ⟨m, hm, rfl⟩ := List.mem_map.1 (show y ∈ under key ms by rw [hy]; exact List.mem_singleton_self y)
        exact Or.inr ⟨m, (List.mem_filter.1 hm).1, h⟩
      · cases h
    · cases h
  | _ => cases h

variable {f : Doc → Nat} {key : String} {x : Doc} {xs : List Doc}

theorem takes_of_list? (h : x.list? = some xs) (hf : ∀ y ∈ xs, y.Takes (f y)) : x.Takes (xs.map f).sum := by
  cases x with
  | list ys =>
    cases h
    exact takes_list hf
  | _ => cases h

theorem takes_of_listAt? (h : x.listAt? key = some xs) (hf : ∀ y ∈ xs, y.Takes (f y)) : x.Takes (xs.map f).sum := by
  obtain ⟨ms, rfl, hempty | ⟨m, hm, hlist⟩⟩ := exists_of_at? h
  · cases hempty
    exact fun _ _ => Nat.zero_le _
  · exact takes_of_mem hm (takes_of_list? hlist hf)

theorem takes_length_of_list? (h : x.list? = some xs) : x.Takes xs.length := by
  have := takes_of_list? h fun y _ => takes_one y
  rwa [List.map_const', List.sum_replicate_nat, Nat.mul_one] at this

theorem takes_length_of_listAt? (h : x.listAt? key = some xs) : x.Takes xs.length := by
  have := takes_of_listAt? h fun y _ => takes_one y
  rwa [List.map_const', List.sum_replicate_nat, Nat.mul_one] at this

/-- How long the list under a name is. -/
def lengthAt (key : String) (x : Doc) : Nat :=
  ((x.listAt? key).getD []).length

theorem takes_lengthAt (key : String) (x : Doc) : x.Takes (x.lengthAt key) := by
  unfold lengthAt
  cases h : x.listAt? key with
  | none => exact fun _ _ => Nat.zero_le _
  | some ys => exact takes_length_of_listAt? h

theorem length_of_listsAt? {ys : List Doc} (h : listsAt? key xs = some ys) :
    ys.length = (xs.map (lengthAt key)).sum := by
  obtain ⟨lists, hlists, rfl⟩ := Option.map_eq_some_iff.1 h
  rw [List.length_flatten, map_eq_of_mapM (fun y l hl => ?_) hlists]
  rw [lengthAt, hl]
  rfl

end Doc

end LintDelta.Json
