import LintDelta.Proofs.Json.Inspection

/-!
# Documents that are alike

Two documents are alike for a shape if they differ in the texts under one name at most, and there in a given way:
the name of a field of a record, or the place of that field where the record is a list. Members that are not fields
may hold anything. What such documents are in the shape differs in the same places at most, and one of them is
something exactly if the other is.

Main statement: `Shape.rel_ofDoc?`, which goes through the shape together with the documents.
-/

namespace LintDelta.Json

open Doc (MemberList)

/-! ## Relations on lists and partial values -/

section

variable {α β γ : Type}

theorem rel_refl {R : α → α → Prop} (h : ∀ x, R x x) (o : Option α) : Option.Rel R o o := by
  cases o with
  | none => exact .none
  | some x => exact .some (h x)

/-- Two parts that are alike make wholes that are. -/
theorem rel_bind_map {δ : Type} {R : α → α → Prop} {S : β → β → Prop} {T : δ → δ → Prop} {make : α → β → δ}
    (hT : ∀ v w vs ws, R v w → S vs ws → T (make v vs) (make w ws)) {o p : Option α} {q r : Option β}
    (h : Option.Rel R o p) (h' : Option.Rel S q r) :
    Option.Rel T (o.bind fun v => q.map (make v)) (p.bind fun v => r.map (make v)) := by
  cases h with
  | none => exact .none
  | some hv =>
    cases h' with
    | none => exact .none
    | some hvs => exact .some (hT _ _ _ _ hv hvs)

/-- Elements that are mapped alike make lists that are. -/
theorem rel_mapM {A : α → α → Prop} {R : β → β → Prop} {f : α → Option β}
    (hf : ∀ x y, A x y → Option.Rel R (f x) (f y)) {xs ys : List α} (h : List.Forall₂ A xs ys) :
    Option.Rel (List.Forall₂ R) (xs.mapM f) (ys.mapM f) := by
  have hcons (x : α) (xs : List α) : (x :: xs).mapM f = (f x).bind fun v => (xs.mapM f).map (v :: ·) := by
    rw [List.mapM_cons]
    cases f x with
    | none => rfl
    | some v => cases xs.mapM f <;> rfl
  induction h with
  | nil => exact .some .nil
  | cons hxy _ ih =>
    rw [hcons, hcons]
    exact rel_bind_map (fun _ _ _ _ hv hvs => .cons hv hvs) (hf _ _ hxy) ih

theorem rel_map {R : α → α → Prop} {S : β → β → Prop} {f : α → β} (hf : ∀ v w, R v w → S (f v) (f w))
    {o p : Option α} (h : Option.Rel R o p) : Option.Rel S (o.map f) (p.map f) := by
  cases h with
  | none => exact .none
  | some hv => exact .some (hf _ _ hv)

theorem map_eq_of_rel {R : α → α → Prop} {f : α → γ} (hf : ∀ v w, R v w → f v = f w) {o p : Option α}
    (h : Option.Rel R o p) : o.map f = p.map f := by
  cases h with
  | none => rfl
  | some hv => exact congrArg some (hf _ _ hv)

end

/-! ## What is alike -/

/-- Lists whose items are alike, or one and the same document. -/
def Doc.ListsAlike (A : Doc → Doc → Prop) (x y : Doc) : Prop :=
  x = y ∨ ∃ xs ys, x = .list xs ∧ y = .list ys ∧ List.Forall₂ A xs ys

section

variable (grade : String) (R : String → String → Prop)

mutual

/-- Documents that differ in the texts under `grade` at most, and there by `R`. The flag tells whether the documents
themselves stand under that name. -/
def Shape.AlikeDocs : Shape → Bool → Doc → Doc → Prop
  | .text _, graded, x, y =>
    x = y ∨ (graded = true ∧ ∃ s t, x = .text (some s) ∧ y = .text (some t) ∧ R s t)
  | .list item, _, x, y => Doc.ListsAlike (item.AlikeDocs false) x y
  | .record _ fields, _, x, y =>
    x = y ∨ (∃ ms ns, x = .object ms ∧ y = .object ns ∧ List.Forall₂ fields.AlikeMembers ms ns) ∨
      ∃ xs ys, x = .list xs ∧ y = .list ys ∧ fields.AlikeItems xs ys
  | _, _, x, y => x = y

/-- Members of one name that are alike if they are a field. -/
def Fields.AlikeMembers : Fields → Option String × Doc → Option String × Doc → Prop
  | .nil, m, n => m.1 = n.1
  | .required key shape rest, m, n | .optional key shape rest, m, n =>
    (m.1 = some key → shape.AlikeDocs (key == grade) m.2 n.2) ∧ rest.AlikeMembers m n
  | .listed key item rest, m, n =>
    (m.1 = some key → Doc.ListsAlike (item.AlikeDocs false) m.2 n.2) ∧ rest.AlikeMembers m n

/-- The fields of a record in order. -/
def Fields.AlikeItems : Fields → List Doc → List Doc → Prop
  | .nil, xs, ys => xs = ys
  | .required key shape rest, xs, ys | .optional key shape rest, xs, ys =>
    xs = ys ∨ ∃ x y xs' ys', xs = x :: xs' ∧ ys = y :: ys' ∧ shape.AlikeDocs (key == grade) x y ∧
      rest.AlikeItems xs' ys'
  | .listed _ item rest, xs, ys =>
    xs = ys ∨ ∃ x y xs' ys', xs = x :: xs' ∧ ys = y :: ys' ∧ Doc.ListsAlike (item.AlikeDocs false) x y ∧
      rest.AlikeItems xs' ys'

end

mutual

/-- Values that differ in the texts under `grade` at most, and there by `R`. -/
def Shape.AlikeVals : (shape : Shape) → Bool → shape.Val → shape.Val → Prop
  | .text _, graded, s, t => s = t ∨ (graded = true ∧ R s t)
  | .list item, _, xs, ys => List.Forall₂ (item.AlikeVals false) xs ys
  | .record _ fields, _, v, w => fields.AlikeVals v w
  | .flag, _, v, w => v = w
  | .signed, _, v, w => v = w
  | .dict _, _, v, w => v = w
  | .label _, _, v, w => v = w
  | .variant _ _, _, v, w => v = w
  | .openRecord _ _, _, v, w => v = w

def Fields.AlikeVals : (fields : Fields) → fields.Val → fields.Val → Prop
  | .nil, _, _ => True
  | .required key shape rest, (x, xs), (y, ys) => shape.AlikeVals (key == grade) x y ∧ rest.AlikeVals xs ys
  | .optional key shape rest, (x, xs), (y, ys) =>
    Option.Rel (shape.AlikeVals (key == grade)) x y ∧ rest.AlikeVals xs ys
  | .listed _ item rest, (x, xs), (y, ys) => List.Forall₂ (item.AlikeVals false) x y ∧ rest.AlikeVals xs ys

end

end

section

variable {grade : String} {R : String → String → Prop}

mutual

theorem Shape.alikeVals_refl : (shape : Shape) → ∀ (graded : Bool) (v : shape.Val),
    shape.AlikeVals grade R graded v v
  | .text _, _, _ => Or.inl rfl
  | .list item, _, _ => List.forall₂_same.2 fun x _ => item.alikeVals_refl false x
  | .record _ fields, _, v => fields.alikeVals_refl v
  | .flag, _, _ => rfl
  | .signed, _, _ => rfl
  | .dict _, _, _ => rfl
  | .label _, _, _ => rfl
  | .variant _ _, _, _ => rfl
  | .openRecord _ _, _, _ => rfl

theorem Fields.alikeVals_refl : (fields : Fields) → ∀ v : fields.Val, fields.AlikeVals grade R v v
  | .nil, _ => trivial
  | .required _ shape rest, (x, xs) => ⟨shape.alikeVals_refl _ x, rest.alikeVals_refl xs⟩
  | .optional _ shape rest, (x, xs) => ⟨rel_refl (shape.alikeVals_refl _) x, rest.alikeVals_refl xs⟩
  | .listed _ item rest, (_, xs) =>
    ⟨List.forall₂_same.2 fun y _ => item.alikeVals_refl false y, rest.alikeVals_refl xs⟩

end

/-! ## Members -/

theorem Fields.name_eq_of_alikeMembers : (fields : Fields) → ∀ {m n : Option String × Doc},
    fields.AlikeMembers grade R m n → m.1 = n.1
  | .nil, _, _, h => h
  | .required _ _ rest, _, _, h => rest.name_eq_of_alikeMembers h.2
  | .optional _ _ rest, _, _, h => rest.name_eq_of_alikeMembers h.2
  | .listed _ _ rest, _, _, h => rest.name_eq_of_alikeMembers h.2

variable {ms ns : MemberList}

theorem legible_eq (h : List.Forall₂ (fun m n => m.1 = n.1) ms ns) : Doc.legible ms = Doc.legible ns := by
  induction h with
  | nil => rfl
  | cons hname _ ih =>
    simp only [Doc.legible, List.all_cons] at ih ⊢
    rw [hname, ih]

/-- What stands under the name of a field is alike. -/
theorem forall₂_under {A : Doc → Doc → Prop} {key : String}
    (h : List.Forall₂ (fun m n => m.1 = n.1 ∧ (m.1 = some key → A m.2 n.2)) ms ns) :
    List.Forall₂ A (Doc.under key ms) (Doc.under key ns) := by
  induction h with
  | nil => exact .nil
  | @cons m n ms ns hm _ ih =>
    obtain ⟨hname, hvalue⟩ := hm
    by_cases hkey : m.1 = some key
    · have hleft : Doc.under key (m :: ms) = m.2 :: Doc.under key ms := by simp [Doc.under, hkey]
      have hright : Doc.under key (n :: ns) = n.2 :: Doc.under key ns := by simp [Doc.under, ← hname, hkey]
      rw [hleft, hright]
      exact .cons (hvalue hkey) ih
    · have hleft : Doc.under key (m :: ms) = Doc.under key ms := by simp [Doc.under, hkey]
      have hright : Doc.under key (n :: ns) = Doc.under key ns := by simp [Doc.under, ← hname, hkey]
      rw [hleft, hright]
      exact ih

theorem rel_once {α : Type} {A : Doc → Doc → Prop} {S : α → α → Prop} {missing : Option α} {value? : Doc → Option α}
    (hmissing : Option.Rel S missing missing) {xs ys : List Doc} (h : List.Forall₂ A xs ys)
    (hvalue : ∀ x y, A x y → Option.Rel S (value? x) (value? y)) :
    Option.Rel S (Doc.once missing value? xs) (Doc.once missing value? ys) := by
  cases h with
  | nil => exact hmissing
  | cons hxy hrest =>
    cases hrest with
    | nil => exact hvalue _ _ hxy
    | cons _ _ => exact .none

/-! ## Looking at what is alike -/

theorem rel_itemsOf? {α : Type} {A : Doc → Doc → Prop} {S : α → α → Prop} {value? : Doc → Option α}
    (hrefl : ∀ v, S v v) {x y : Doc} (h : Doc.ListsAlike A x y)
    (hvalue : ∀ x y, A x y → Option.Rel S (value? x) (value? y)) :
    Option.Rel (List.Forall₂ S) (Doc.itemsOf? value? x) (Doc.itemsOf? value? y) := by
  rcases h with rfl | ⟨xs, ys, rfl, rfl, hitems⟩
  · exact rel_refl (fun vs => List.forall₂_same.2 fun v _ => hrefl v) _
  · exact rel_mapM hvalue hitems

/-- Documents that are alike are both `null` or neither. -/
theorem Shape.eq_null_iff : (shape : Shape) → ∀ {graded : Bool} {x y : Doc}, shape.AlikeDocs grade R graded x y →
    (x = .null ↔ y = .null)
  | .text _, _, _, _, h => by
    rcases h with rfl | ⟨-, s, t, rfl, rfl, -⟩
    · exact Iff.rfl
    · exact ⟨nofun, nofun⟩
  | .list _, _, _, _, h => by
    rcases h with rfl | ⟨xs, ys, rfl, rfl, -⟩
    · exact Iff.rfl
    · exact ⟨nofun, nofun⟩
  | .record _ _, _, _, _, h => by
    rcases h with rfl | ⟨ms, ns, rfl, rfl, -⟩ | ⟨xs, ys, rfl, rfl, -⟩
    · exact Iff.rfl
    · exact ⟨nofun, nofun⟩
    · exact ⟨nofun, nofun⟩
  | .flag, _, _, _, h | .signed, _, _, _, h | .dict _, _, _, _, h | .label _, _, _, _, h
  | .variant _ _, _, _, _, h | .openRecord _ _, _, _, _, h => by rw [show _ = _ from h]

theorem rel_nullOr {shape : Shape} {graded : Bool} {x y : Doc}
    (hvalue : Option.Rel (shape.AlikeVals grade R graded) (shape.ofDoc? x) (shape.ofDoc? y))
    (h : shape.AlikeDocs grade R graded x y) :
    Option.Rel (Option.Rel (shape.AlikeVals grade R graded)) (Doc.nullOr (fun x => shape.ofDoc? x) x)
      (Doc.nullOr (fun x => shape.ofDoc? x) y) := by
  by_cases hnull : x = .null
  · obtain rfl := hnull
    obtain rfl := (shape.eq_null_iff h).1 rfl
    exact .some .none
  · have hother (z : Doc) (hz : z ≠ .null) :
        Doc.nullOr (fun x => shape.ofDoc? x) z = (shape.ofDoc? z).map some := by
      cases z with
      | null => exact absurd rfl hz
      | _ => rfl
    rw [hother x hnull, hother y (mt (shape.eq_null_iff h).2 hnull)]
    exact rel_map (fun _ _ hv => .some hv) hvalue

mutual

/-- **What alike documents are in a shape is alike**, and one of them is something if the other is. -/
theorem Shape.rel_ofDoc? : (shape : Shape) → ∀ {graded : Bool} {x y : Doc}, shape.AlikeDocs grade R graded x y →
    Option.Rel (shape.AlikeVals grade R graded) (shape.ofDoc? x) (shape.ofDoc? y)
  | .text wanted, graded, x, y, h => by
    rcases h with rfl | ⟨hgraded, s, t, rfl, rfl, hR⟩
    · exact rel_refl (Shape.alikeVals_refl (.text wanted) graded) _
    · exact .some (Or.inr ⟨hgraded, hR⟩)
  | .list item, graded, x, y, h => by
    have hitems : Doc.ListsAlike (item.AlikeDocs grade R false) x y := h
    exact rel_itemsOf? (item.alikeVals_refl false) hitems fun _ _ => item.rel_ofDoc?
  | .record wanted fields, graded, x, y, h => by
    rcases h with rfl | ⟨ms, ns, rfl, rfl, hms⟩ | ⟨xs, ys, rfl, rfl, hitems⟩
    · exact rel_refl (Shape.alikeVals_refl (.record wanted fields) graded) _
    · have hlegible := legible_eq (hms.imp fun _ _ => fields.name_eq_of_alikeMembers)
      have hmembers := fields.rel_ofMembers? hms
      show Option.Rel (fields.AlikeVals grade R) (if Doc.legible ms then fields.ofMembers? ms else none)
        (if Doc.legible ns then fields.ofMembers? ns else none)
      rw [← hlegible]
      cases Doc.legible ms with
      | false => exact .none
      | true => exact hmembers
    · exact fields.rel_ofItems? hitems
  | .flag, _, _, _, _ => .none
  | .signed, _, _, _, _ => .none
  | .dict _, _, _, _, _ => .none
  | .label _, _, _, _, _ => .none
  | .variant _ _, _, _, _, _ => .none
  | .openRecord _ _, _, _, _, _ => .none

theorem Fields.rel_ofMembers? : (fields : Fields) → ∀ {ms ns : MemberList},
    List.Forall₂ (fields.AlikeMembers grade R) ms ns →
      Option.Rel (fields.AlikeVals grade R) (fields.ofMembers? ms) (fields.ofMembers? ns)
  | .nil, _, _, _ => .some trivial
  | .required key shape rest, ms, ns, h => by
    have hunder := forall₂_under (h.imp fun _ _ hm => ⟨Fields.name_eq_of_alikeMembers _ hm, hm.1⟩)
    have hfirst := rel_once .none hunder fun _ _ => shape.rel_ofDoc?
    have hrest := rest.rel_ofMembers? (h.imp fun _ _ hm => hm.2)
    exact rel_bind_map (fun _ _ _ _ hv hvs => ⟨hv, hvs⟩) hfirst hrest
  | .optional key shape rest, ms, ns, h => by
    have hunder := forall₂_under (h.imp fun _ _ hm => ⟨Fields.name_eq_of_alikeMembers _ hm, hm.1⟩)
    have hfirst := rel_once (.some .none) hunder fun _ _ hxy => rel_nullOr (shape.rel_ofDoc? hxy) hxy
    have hrest := rest.rel_ofMembers? (h.imp fun _ _ hm => hm.2)
    exact rel_bind_map (fun _ _ _ _ hv hvs => ⟨hv, hvs⟩) hfirst hrest
  | .listed key item rest, ms, ns, h => by
    have hunder := forall₂_under (h.imp fun _ _ hm => ⟨Fields.name_eq_of_alikeMembers _ hm, hm.1⟩)
    have hfirst := rel_once (.some .nil) hunder fun _ _ hxy =>
      rel_itemsOf? (item.alikeVals_refl false) hxy fun _ _ => item.rel_ofDoc?
    have hrest := rest.rel_ofMembers? (h.imp fun _ _ hm => hm.2)
    exact rel_bind_map (fun _ _ _ _ hv hvs => ⟨hv, hvs⟩) hfirst hrest

theorem Fields.rel_ofItems? : (fields : Fields) → ∀ {xs ys : List Doc}, fields.AlikeItems grade R xs ys →
    Option.Rel (fields.AlikeVals grade R) (fields.ofItems? xs) (fields.ofItems? ys)
  | .nil, xs, ys, h => by
    obtain rfl : xs = ys := h
    exact rel_refl (Fields.alikeVals_refl .nil) _
  | .required key shape rest, xs, ys, h => by
    rcases h with rfl | ⟨x, y, xs', ys', rfl, rfl, hxy, hrest⟩
    · exact rel_refl (Fields.alikeVals_refl (.required key shape rest)) _
    · exact rel_bind_map (fun _ _ _ _ hv hvs => ⟨hv, hvs⟩) (shape.rel_ofDoc? hxy) (rest.rel_ofItems? hrest)
  | .optional key shape rest, xs, ys, h => by
    rcases h with rfl | ⟨x, y, xs', ys', rfl, rfl, hxy, hrest⟩
    · exact rel_refl (Fields.alikeVals_refl (.optional key shape rest)) _
    · have hfirst := rel_nullOr (shape.rel_ofDoc? hxy) hxy
      exact rel_bind_map (fun _ _ _ _ hv hvs => ⟨hv, hvs⟩) hfirst (rest.rel_ofItems? hrest)
  | .listed key item rest, xs, ys, h => by
    rcases h with rfl | ⟨x, y, xs', ys', rfl, rfl, hxy, hrest⟩
    · exact rel_refl (Fields.alikeVals_refl (.listed key item rest)) _
    · have hfirst := rel_itemsOf? (item.alikeVals_refl false) hxy fun _ _ => item.rel_ofDoc?
      exact rel_bind_map (fun _ _ _ _ hv hvs => ⟨hv, hvs⟩) hfirst (rest.rel_ofItems? hrest)

end

end

end LintDelta.Json
