import Mathlib.Data.List.Nodup
import LintDelta.Json.Codec
import LintDelta.Proofs.Json.Shapes

/-!
# Values that are read back

A shape reads back what it writes if the names that it writes tell its parts from each other: those of the fields
of a record, of the variants of a choice, and of labels (`Shape.ofJson?_write`). What it writes can be stored,
so it is read back from its text too.

Main statement: `Codec.Faithful.readText_of_writeText`, a faithful codec reads every text that it writes as the
value for which it was written.
-/

namespace LintDelta.Json

/-! ## Shapes with names that tell their parts -/

mutual

/-- No two fields of a record, variants of a choice or labels have one name, and no record takes members that
are not its fields. -/
def Shape.exact : Shape → Bool
  | .text _ | .flag | .signed => true
  | .list item | .dict item => item.exact
  | .record _ fields => fields.exact
  | .label names => decide names.Nodup
  | .variant _ cases => cases.exact
  | .openRecord _ _ => false

def Fields.exact : Fields → Bool
  | .nil => true
  | .required key shape rest | .optional key shape rest | .listed key shape rest =>
    !rest.keys.contains key && (shape.exact && rest.exact)

def Cases.exact : Cases → Bool
  | .nil => true
  | .cons name fields rest => !rest.names.contains name && (fields.exact && rest.exact)

end

mutual

/-- How deep brackets stand in each other in what a shape writes. -/
def Shape.depth : Shape → Nat
  | .text _ | .flag | .signed | .label _ => 0
  | .list item | .dict item => item.depth + 1
  | .record _ fields | .openRecord _ fields => fields.depth + 1
  | .variant _ cases => cases.depth + 1

def Fields.depth : Fields → Nat
  | .nil => 0
  | .required _ shape rest | .optional _ shape rest => max shape.depth rest.depth
  | .listed _ item rest => max (item.depth + 1) rest.depth

def Cases.depth : Cases → Nat
  | .nil => 0
  | .cons _ fields rest => max (fields.depth + 1) rest.depth

end

mutual

/-- The integers of a value have 64 bits. -/
def Shape.Fits : (shape : Shape) → shape.Val → Prop
  | .text _, _ => True
  | .flag, _ => True
  | .signed, n => Machine.fits n = true
  | .list item, xs => xs.Forall item.Fits
  | .dict item, ms => ms.Forall fun m => item.Fits m.2
  | .record _ fields, x => fields.Fits x
  | .label _, _ => True
  | .variant _ cases, x => cases.Fits x
  | .openRecord _ fields, x => fields.Fits x.1

def Fields.Fits : (fields : Fields) → fields.Val → Prop
  | .nil, _ => True
  | .required _ shape rest, (x, xs) => shape.Fits x ∧ rest.Fits xs
  | .optional _ shape rest, (x, xs) => (∀ y ∈ x, shape.Fits y) ∧ rest.Fits xs
  | .listed _ item rest, (x, xs) => x.Forall item.Fits ∧ rest.Fits xs

def Cases.Fits : (cases : Cases) → cases.Val → Prop
  | .cons _ fields _, .inl x => fields.Fits x
  | .cons _ _ rest, .inr x => rest.Fits x

end

/-! ## Members of records -/

/-- The fields of a record as its members fill them: a list that is not written fills nothing. -/
def Fields.filled : (fields : Fields) → fields.Val → fields.Slots
  | .nil, _ => ()
  | .required _ _ rest, (x, xs) => (some x, rest.filled xs)
  | .optional _ _ rest, (x, xs) => (some x, rest.filled xs)
  | .listed _ _ rest, (x, xs) => (if x.isEmpty then none else some x, rest.filled xs)

theorem Fields.finish_filled : (fields : Fields) → ∀ v : fields.Val, fields.finish (fields.filled v) = .ok v
  | .nil, _ => rfl
  | .required key shape rest, v => by
    obtain ⟨x, xs⟩ := v
    rw [Fields.filled, Fields.finish, rest.finish_filled xs]
    rfl
  | .optional key shape rest, v => by
    obtain ⟨x, xs⟩ := v
    rw [Fields.filled, Fields.finish, rest.finish_filled xs]
    rfl
  | .listed key item rest, v => by
    obtain ⟨x, xs⟩ := v
    rw [Fields.filled, Fields.finish, rest.finish_filled xs]
    cases x <;> rfl

/-- The members that are written have names of fields. -/
theorem Fields.mem_keys_of_mem_write : (fields : Fields) → ∀ {v : fields.Val} {m : String × Json},
    m ∈ fields.write v → m.1 ∈ fields.keys
  | .nil, _, _, h => nomatch h
  | .required key shape rest, (x, xs), m, h => by
    rcases List.mem_cons.1 h with rfl | h
    · exact List.mem_cons_self
    · exact List.mem_cons_of_mem key (rest.mem_keys_of_mem_write h)
  | .optional key shape rest, (x, xs), m, h => by
    rcases List.mem_cons.1 h with rfl | h
    · exact List.mem_cons_self
    · exact List.mem_cons_of_mem key (rest.mem_keys_of_mem_write h)
  | .listed key item rest, (x, xs), m, h => by
    rcases List.mem_append.1 h with h | h
    · split at h
      · cases h
      · rw [List.mem_singleton.1 h]
        exact List.mem_cons_self
    · exact List.mem_cons_of_mem key (rest.mem_keys_of_mem_write h)

theorem Fields.not_mem_names_write {rest : Fields} {key : String} (h : (!rest.keys.contains key) = true)
    (v : rest.Val) : key ∉ (rest.write v).map (·.1) := by
  intro hmem
  obtain ⟨m, hm, rfl⟩ := List.mem_map.1 hmem
  have hkey := rest.mem_keys_of_mem_write hm
  simp [hkey] at h

/-- The first field is filled by its member, and then the others by theirs. -/
theorem Fields.foldlM_first {key : String} {rest : Fields} {α : Type}
    {fill : α × rest.Slots → String → Json → Option (α × rest.Slots)}
    (hfill : ∀ slot slots name x, name ≠ key →
      fill (slot, slots) name x = (rest.fill slots name x).map fun slots => (slot, slots))
    {ms : List (String × Json)} (hms : key ∉ ms.map (·.1)) {slot slot' : α} {x : Json} {slots slots' : rest.Slots}
    (hfirst : fill (slot, slots) key x = some (slot', slots))
    (hrest : ms.foldlM (fun slots m => rest.fill slots m.1 m.2) slots = some slots') :
    ((key, x) :: ms).foldlM (fun slots m => fill slots m.1 m.2) (slot, slots) = some (slot', slots') := by
  have hpast := Fields.foldlM_past hfill hms slot' slots
  rw [hrest] at hpast
  rw [List.foldlM_cons, hfirst]
  exact hpast

/-- What is written of a choice has the name of a variant. -/
theorem Cases.mem_names_write : (cases : Cases) → ∀ v : cases.Val, (cases.write v).1 ∈ cases.names
  | .cons _ _ _, .inl _ => List.mem_cons_self
  | .cons name _ rest, .inr v => List.mem_cons_of_mem name (rest.mem_names_write v)

/-! ## Reading what was written -/

theorem Shape.write_ne_null (shape : Shape) (v : shape.Val) : shape.write v ≠ .null := by
  cases shape <;> exact nofun

theorem nullOr_of_ne_null {α : Type} (value? : Json → Option α) {x : Json} (h : x ≠ .null) :
    nullOr value? x = (value? x).map some := by
  cases x with
  | null => exact absurd rfl h
  | _ => rfl

/-- A record is got back once its members fill all of its fields. -/
theorem Fields.collect_eq_some {fields : Fields} {ms : List (String × Json)} {v : fields.Val}
    (h : ms.foldlM (fun slots m => fields.fill slots m.1 m.2) fields.empty = some (fields.filled v)) :
    fields.collect fields.fill ms = some v := by
  rw [collect, h, Option.bind_some, finish_filled]
  rfl

/-- A label is found at its place if no other is spelled so. -/
theorem finIdxOf?_get {names : List String} (h : names.Nodup) (i : Fin names.length) :
    names.finIdxOf? (names.get i) = some i := by
  refine List.finIdxOf?_eq_some_iff.2 ⟨rfl, ?_⟩
  intro j hj heq
  have hsame : j = i := List.nodup_iff_injective_get.1 h heq
  omega

mutual

/-- **What a shape writes is the value for which it was written**, if the names tell the parts. -/
theorem Shape.ofJson?_write : (shape : Shape) → shape.exact = true → ∀ {v : shape.Val}, shape.Fits v →
    shape.ofJson? (shape.write v) = some v
  | .text wanted, _, v, _ => rfl
  | .flag, _, v, _ => rfl
  | .signed, _, n, h => Machine.check_eq_some_iff.2 ⟨h, rfl⟩
  | .list item, hexact, xs, h =>
    mapM_map_eq_some fun x hx => item.ofJson?_write hexact (List.forall_iff_forall_mem.1 h x hx)
  | .dict item, hexact, ms, h => by
    refine mapM_map_eq_some fun m hm => ?_
    rw [item.ofJson?_write hexact (List.forall_iff_forall_mem.1 h m hm)]
    rfl
  | .record wanted fields, hexact, v, h => Fields.collect_eq_some (fields.foldlM_fill_write hexact h)
  | .label names, hexact, i, _ => finIdxOf?_get (of_decide_eq_true hexact) i
  | .variant title cases, hexact, v, h => cases.ofJson?_write hexact h
  | .openRecord _ _, hexact, _, _ => nomatch hexact

theorem Fields.foldlM_fill_write : (fields : Fields) → fields.exact = true → ∀ {v : fields.Val}, fields.Fits v →
    (fields.write v).foldlM (fun slots m => fields.fill slots m.1 m.2) fields.empty = some (fields.filled v)
  | .nil, _, _, _ => rfl
  | .required key shape rest, hexact, (x, xs), h => by
    obtain ⟨hkey, hshape, hrest⟩ := (Bool.and_eq_true_iff.1 hexact).imp_right Bool.and_eq_true_iff.1
    refine Fields.foldlM_first (fun _ _ _ _ hne => if_neg hne) (Fields.not_mem_names_write hkey xs) ?_
      (rest.foldlM_fill_write hrest h.2)
    rw [Fields.fill, if_pos rfl, shape.ofJson?_write hshape h.1]
    rfl
  | .optional key shape rest, hexact, (x, xs), h => by
    obtain ⟨hkey, hshape, hrest⟩ := (Bool.and_eq_true_iff.1 hexact).imp_right Bool.and_eq_true_iff.1
    refine Fields.foldlM_first (fun _ _ _ _ hne => if_neg hne) (Fields.not_mem_names_write hkey xs) ?_
      (rest.foldlM_fill_write hrest h.2)
    rw [Fields.fill, if_pos rfl]
    cases x with
    | none => rfl
    | some x =>
      have hvalue := nullOr_of_ne_null (fun y => shape.ofJson? y) (shape.write_ne_null x)
      rw [hvalue, shape.ofJson?_write hshape (h.1 x rfl)]
      rfl
  | .listed key item rest, hexact, (x, xs), h => by
    obtain ⟨hkey, hitem, hrest⟩ := (Bool.and_eq_true_iff.1 hexact).imp_right Bool.and_eq_true_iff.1
    have hfill : ∀ slot slots name y, name ≠ key → (Fields.listed key item rest).fill (slot, slots) name y =
        (rest.fill slots name y).map fun slots => (slot, slots) := fun _ _ _ _ hne => if_neg hne
    cases x with
    | nil =>
      have hpast := Fields.foldlM_past hfill (Fields.not_mem_names_write hkey xs) none rest.empty
      rw [rest.foldlM_fill_write hrest h.2] at hpast
      exact hpast
    | cons y ys =>
      have hitems : ((y :: ys).map item.write).mapM (fun y => item.ofJson? y) = some (y :: ys) :=
        mapM_map_eq_some fun z hz => item.ofJson?_write hitem (List.forall_iff_forall_mem.1 h.1 z hz)
      refine Fields.foldlM_first hfill (Fields.not_mem_names_write hkey xs) ?_ (rest.foldlM_fill_write hrest h.2)
      rw [Fields.fill, if_pos rfl]
      exact congrArg (fillSlot none fun v => (some v, rest.empty)) hitems

theorem Cases.ofJson?_write : (cases : Cases) → cases.exact = true → ∀ {v : cases.Val}, cases.Fits v →
    cases.ofJson? (cases.write v).1 (cases.write v).2 = some v
  | .cons name fields rest, hexact, .inl x, h => by
    obtain ⟨-, hfields, -⟩ := (Bool.and_eq_true_iff.1 hexact).imp_right Bool.and_eq_true_iff.1
    have hrecord := Fields.collect_eq_some (fields.foldlM_fill_write hfields h)
    show (if name = name then _ else _) = _
    rw [if_pos rfl]
    exact congrArg (Option.map Sum.inl) hrecord
  | .cons name fields rest, hexact, .inr x, h => by
    obtain ⟨hname, -, hrest⟩ := (Bool.and_eq_true_iff.1 hexact).imp_right Bool.and_eq_true_iff.1
    have hne : (rest.write x).1 ≠ name := by
      rintro rfl
      have hmem := rest.mem_names_write x
      simp [hmem] at hname
    show (if (rest.write x).1 = name then _ else _) = _
    rw [if_neg hne]
    exact congrArg (Option.map Sum.inr) (rest.ofJson?_write hrest h)

end

/-! ## What is written can be stored -/

mutual

/-- What a shape writes has no doubles, and its integers have 64 bits. -/
theorem Shape.storable_write : (shape : Shape) → shape.exact = true → ∀ {v : shape.Val}, shape.Fits v →
    Storable shape.depth (shape.write v)
  | .text wanted, _, s, _ => .text s
  | .flag, _, b, _ => .bool b
  | .signed, _, n, h => by
    have hfits : Machine.fits n = true := h
    simp only [Machine.fits, Bool.and_eq_true, decide_eq_true_eq] at hfits
    exact .integer hfits.1 (by omega)
  | .list item, hexact, xs, h => by
    refine .list fun x hx => ?_
    obtain ⟨y, hy, rfl⟩ := List.mem_map.1 hx
    exact item.storable_write hexact (List.forall_iff_forall_mem.1 h y hy)
  | .dict item, hexact, ms, h => by
    refine .object fun m hm => ?_
    obtain ⟨n, hn, rfl⟩ := List.mem_map.1 hm
    exact item.storable_write hexact (List.forall_iff_forall_mem.1 h n hn)
  | .record wanted fields, hexact, v, h => .object (fields.storable_write hexact h)
  | .label names, _, i, _ => .text (names.get i)
  | .variant title cases, hexact, v, h => by
    refine .object fun m hm => ?_
    rw [List.mem_singleton.1 hm]
    exact cases.storable_write hexact h
  | .openRecord _ _, hexact, _, _ => nomatch hexact

theorem Fields.storable_write : (fields : Fields) → fields.exact = true → ∀ {v : fields.Val}, fields.Fits v →
    ∀ m ∈ fields.write v, Storable fields.depth m.2
  | .nil, _, _, _, m, hm => nomatch hm
  | .required key shape rest, hexact, (x, xs), h, m, hm => by
    obtain ⟨-, hshape, hrest⟩ := (Bool.and_eq_true_iff.1 hexact).imp_right Bool.and_eq_true_iff.1
    rcases List.mem_cons.1 hm with rfl | hm
    · exact (shape.storable_write hshape h.1).mono (Nat.le_max_left ..)
    · exact (rest.storable_write hrest h.2 m hm).mono (Nat.le_max_right ..)
  | .optional key shape rest, hexact, (x, xs), h, m, hm => by
    obtain ⟨-, hshape, hrest⟩ := (Bool.and_eq_true_iff.1 hexact).imp_right Bool.and_eq_true_iff.1
    rcases List.mem_cons.1 hm with rfl | hm
    · cases x with
      | none => exact .null
      | some x => exact (shape.storable_write hshape (h.1 x rfl)).mono (Nat.le_max_left ..)
    · exact (rest.storable_write hrest h.2 m hm).mono (Nat.le_max_right ..)
  | .listed key item rest, hexact, (x, xs), h, m, hm => by
    obtain ⟨-, hitem, hrest⟩ := (Bool.and_eq_true_iff.1 hexact).imp_right Bool.and_eq_true_iff.1
    rcases List.mem_append.1 hm with hm | hm
    · split at hm
      · cases hm
      · obtain rfl := List.mem_singleton.1 hm
        refine Storable.mono (.list fun y hy => ?_) (Nat.le_max_left ..)
        obtain ⟨z, hz, rfl⟩ := List.mem_map.1 hy
        exact item.storable_write hitem (List.forall_iff_forall_mem.1 h.1 z hz)
    · exact (rest.storable_write hrest h.2 m hm).mono (Nat.le_max_right ..)

theorem Cases.storable_write : (cases : Cases) → cases.exact = true → ∀ {v : cases.Val}, cases.Fits v →
    Storable cases.depth (cases.write v).2
  | .cons name fields rest, hexact, .inl x, h => by
    obtain ⟨-, hfields, -⟩ := (Bool.and_eq_true_iff.1 hexact).imp_right Bool.and_eq_true_iff.1
    exact (Storable.object (fields.storable_write hfields h)).mono (Nat.le_max_left ..)
  | .cons name fields rest, hexact, .inr x, h => by
    obtain ⟨-, -, hrest⟩ := (Bool.and_eq_true_iff.1 hexact).imp_right Bool.and_eq_true_iff.1
    exact (rest.storable_write hrest h).mono (Nat.le_max_right ..)

end

/-! ## Codecs -/

/-- A shape reads its values from the texts that it writes for them on one line. -/
theorem Shape.readText_compact {shape : Shape} (hexact : shape.exact = true) (hdepth : shape.depth ≤ maxDepth)
    {v : shape.Val} (h : shape.Fits v) : shape.readText (compact (shape.write v)) = .ok v := by
  have hstorable := shape.storable_write hexact h
  have hreads : Reads shape.read (shape.write v) v := shape.reads_of_ofJson? (shape.ofJson?_write hexact h) hstorable hdepth
  exact hreads.readAll (spells_compact hstorable)

namespace Codec

variable {α : Type} {codec : Codec α} {x : α}

/-- A codec whose stored forms stand for one value each, and are read back as they were written. -/
structure Faithful (codec : Codec α) : Prop where
  exact : codec.shape.exact = true
  depth : codec.shape.depth ≤ maxDepth
  ofVal_toVal : ∀ {x v}, codec.toVal x = some v → codec.ofVal v = x

theorem writeText_eq_none_iff : codec.writeText x = none ↔ codec.toVal x = none := by
  rw [writeText, Option.map_eq_none_iff, write_eq_none_iff]

/-- **A faithful codec reads back what it writes**, if the integers of the value have 64 bits. -/
theorem Faithful.readText_of_writeText (hcodec : codec.Faithful)
    (hfits : ∀ v, codec.toVal x = some v → codec.shape.Fits v) {text : String}
    (htext : codec.writeText x = some text) : codec.readText text = .ok x := by
  obtain ⟨y, hy, rfl⟩ := Option.map_eq_some_iff.1 htext
  obtain ⟨v, hv, rfl⟩ := Option.map_eq_some_iff.1 hy
  have hread := Shape.readText_compact hcodec.exact hcodec.depth (hfits v hv)
  rw [readText, hread]
  exact congrArg Except.ok (hcodec.ofVal_toVal hv)

end Codec

end LintDelta.Json
