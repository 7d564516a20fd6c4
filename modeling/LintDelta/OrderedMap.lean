/-!
# Ordered maps

A finite map as the list of its bindings in increasing order of the keys. One equality of lists then
says that two maps agree, and the order in which a map is listed is part of its value.

Main statements: what `find?` answers after `insert` and after `erase`, that both keep the
bindings in order, and that a map can be made again out of its bindings.
-/

namespace LintDelta

/-- A finite map, as its bindings in increasing order of the keys. -/
structure OrderedMap (κ ν : Type) where
  bindings : List (κ × ν)
  deriving DecidableEq, Repr

namespace OrderedMap

variable {κ ν : Type} [Ord κ]

def empty : OrderedMap κ ν := ⟨[]⟩

def keys (m : OrderedMap κ ν) : List κ :=
  m.bindings.map (·.1)

def lookup (k : κ) : List (κ × ν) → Option ν
  | [] => none
  | (k', v) :: rest =>
    match compare k k' with
    | .lt => none
    | .eq => some v
    | .gt => lookup k rest

def put (k : κ) (v : ν) : List (κ × ν) → List (κ × ν)
  | [] => [(k, v)]
  | (k', v') :: rest =>
    match compare k k' with
    | .lt => (k, v) :: (k', v') :: rest
    | .eq => (k, v) :: rest
    | .gt => (k', v') :: put k v rest

def drop (k : κ) : List (κ × ν) → List (κ × ν)
  | [] => []
  | (k', v') :: rest =>
    match compare k k' with
    | .lt => (k', v') :: rest
    | .eq => rest
    | .gt => (k', v') :: drop k rest

def find? (m : OrderedMap κ ν) (k : κ) : Option ν :=
  lookup k m.bindings

/-- Binds a key, replacing the value it had. -/
def insert (m : OrderedMap κ ν) (k : κ) (v : ν) : OrderedMap κ ν :=
  ⟨put k v m.bindings⟩

def erase (m : OrderedMap κ ν) (k : κ) : OrderedMap κ ν :=
  ⟨drop k m.bindings⟩

/-- Binds pairs one after another; of two with one key the later stays. -/
def ofList (pairs : List (κ × ν)) : OrderedMap κ ν :=
  pairs.foldl (fun m (k, v) => m.insert k v) empty

def map {ν' : Type} (f : ν → ν') (m : OrderedMap κ ν) : OrderedMap κ ν' :=
  ⟨m.bindings.map fun (k, v) => (k, f v)⟩

/-- The elements of a list in increasing order, each once. -/
def distinct (ks : List κ) : List κ :=
  (ofList (ks.map fun k => (k, ()))).keys

def Ordered (m : OrderedMap κ ν) : Prop :=
  m.bindings.Pairwise fun a b => compare a.1 b.1 = .lt

instance : EmptyCollection (OrderedMap κ ν) := ⟨empty⟩

/-! ## What a look-up answers -/

theorem find?_empty (k : κ) : (empty : OrderedMap κ ν).find? k = none := rfl

theorem find?_insert_self [Std.ReflCmp (compare (α := κ))] (m : OrderedMap κ ν) (k : κ) (v : ν) :
    (m.insert k v).find? k = some v := by
  obtain ⟨l⟩ := m
  simp only [find?, insert]
  induction l with
  | nil => simp [put, lookup]
  | cons b rest ih =>
    obtain ⟨k', v'⟩ := b
    simp only [put]
    cases h : compare k k' <;> simp [lookup, h, ih]

theorem find?_insert_of_ne [Std.TransCmp (compare (α := κ))]
    [Std.LawfulEqCmp (compare (α := κ))] (m : OrderedMap κ ν) {k k' : κ} (v : ν) (h : k' ≠ k) :
    (m.insert k v).find? k' = m.find? k' := by
  obtain ⟨l⟩ := m
  simp only [find?, insert]
  have hne : compare k' k ≠ .eq := fun he => h (Std.LawfulEqCmp.eq_of_compare he)
  induction l with
  | nil => cases hc : compare k' k <;> simp_all [put, lookup]
  | cons b rest ih =>
    obtain ⟨k₁, v₁⟩ := b
    cases hk : compare k k₁ with
    | lt =>
      cases hc : compare k' k with
      | lt => simp [put, lookup, hk, hc, Std.TransCmp.lt_trans hc hk]
      | eq => exact absurd hc hne
      | gt => simp [put, lookup, hk, hc]
    | eq =>
      obtain rfl := Std.LawfulEqCmp.eq_of_compare hk
      cases hc : compare k' k <;> simp_all [put, lookup]
    | gt => cases hc : compare k' k₁ <;> simp [put, lookup, hk, hc, ih]

/-! ## Ordered bindings -/

theorem ordered_empty : (empty : OrderedMap κ ν).Ordered := List.Pairwise.nil

theorem mem_put {l : List (κ × ν)} {k : κ} {v : ν} {b : κ × ν} (h : b ∈ put k v l) :
    b = (k, v) ∨ b ∈ l := by
  induction l with
  | nil => simpa [put] using h
  | cons a rest ih =>
    simp only [put] at h
    split at h
    · simpa using h
    · simp only [List.mem_cons] at h ⊢
      exact h.imp id .inr
    · simp only [List.mem_cons] at h ⊢
      rcases h with h | h
      · exact .inr (.inl h)
      · exact (ih h).imp id .inr

theorem mem_of_mem_drop {l : List (κ × ν)} {k : κ} {b : κ × ν} (h : b ∈ drop k l) : b ∈ l := by
  induction l with
  | nil => simp [drop] at h
  | cons a rest ih =>
    simp only [drop] at h
    split at h
    · exact h
    · exact List.mem_cons_of_mem _ h
    · rcases List.mem_cons.1 h with h | h
      · exact h ▸ List.mem_cons_self
      · exact List.mem_cons_of_mem _ (ih h)

theorem ordered_insert [Std.TransCmp (compare (α := κ))] [Std.LawfulEqCmp (compare (α := κ))]
    {m : OrderedMap κ ν} (h : m.Ordered) (k : κ) (v : ν) : (m.insert k v).Ordered := by
  obtain ⟨l⟩ := m
  simp only [Ordered, insert] at h ⊢
  induction l with
  | nil => simp [put]
  | cons b rest ih =>
    obtain ⟨k₁, v₁⟩ := b
    obtain ⟨hb, hrest⟩ := List.pairwise_cons.1 h
    simp only [put]
    split
    · next hk =>
      refine List.pairwise_cons.2 ⟨fun c hc => ?_, h⟩
      rcases List.mem_cons.1 hc with rfl | hc
      · exact hk
      · exact Std.TransCmp.lt_trans hk (hb c hc)
    · next hk =>
      obtain rfl := Std.LawfulEqCmp.eq_of_compare hk
      exact List.pairwise_cons.2 ⟨hb, hrest⟩
    · next hk =>
      refine List.pairwise_cons.2 ⟨fun c hc => ?_, ih hrest⟩
      rcases mem_put hc with rfl | hc
      · exact Std.OrientedCmp.lt_of_gt hk
      · exact hb c hc

theorem ordered_erase {m : OrderedMap κ ν} (h : m.Ordered) (k : κ) : (m.erase k).Ordered := by
  obtain ⟨l⟩ := m
  simp only [Ordered, erase] at h ⊢
  induction l with
  | nil => exact h
  | cons b rest ih =>
    obtain ⟨hb, hrest⟩ := List.pairwise_cons.1 h
    simp only [drop]
    split
    · exact h
    · exact hrest
    · exact List.pairwise_cons.2 ⟨fun c hc => hb c (mem_of_mem_drop hc), ih hrest⟩

theorem ordered_map {ν' : Type} {m : OrderedMap κ ν} (h : m.Ordered) (f : ν → ν') :
    (m.map f).Ordered := by
  simp only [Ordered, map, List.pairwise_map] at h ⊢
  exact h

theorem find?_map {ν' : Type} (m : OrderedMap κ ν) (f : ν → ν') (k : κ) :
    (m.map f).find? k = (m.find? k).map f := by
  obtain ⟨l⟩ := m
  simp only [find?, map]
  induction l with
  | nil => rfl
  | cons b rest ih => cases hc : compare k b.1 <;> simp [lookup, hc, ih]

theorem mem_of_find? [Std.LawfulEqCmp (compare (α := κ))] {m : OrderedMap κ ν} {k : κ} {v : ν}
    (h : m.find? k = some v) : (k, v) ∈ m.bindings := by
  obtain ⟨l⟩ := m
  simp only [find?] at h ⊢
  induction l with
  | nil => simp [lookup] at h
  | cons b rest ih =>
    simp only [lookup] at h
    split at h
    · simp at h
    · next hk =>
      obtain rfl := Std.LawfulEqCmp.eq_of_compare hk
      obtain rfl : b.2 = v := by simpa using h
      exact List.mem_cons_self
    · exact List.mem_cons_of_mem _ (ih h)

theorem lookup_eq_none {l : List (κ × ν)} {k : κ} (h : ∀ b ∈ l, compare k b.1 = .lt) :
    lookup k l = none := by
  cases l with
  | nil => rfl
  | cons b rest => simp [lookup, h b List.mem_cons_self]

theorem find?_erase_self [Std.LawfulEqCmp (compare (α := κ))] {m : OrderedMap κ ν} (h : m.Ordered)
    (k : κ) : (m.erase k).find? k = none := by
  obtain ⟨l⟩ := m
  simp only [Ordered, find?, erase] at h ⊢
  induction l with
  | nil => rfl
  | cons b rest ih =>
    obtain ⟨k₁, v₁⟩ := b
    obtain ⟨hb, hrest⟩ := List.pairwise_cons.1 h
    cases hk : compare k k₁ with
    | lt => simp [drop, lookup, hk]
    | eq =>
      obtain rfl := Std.LawfulEqCmp.eq_of_compare hk
      simpa [drop, hk] using lookup_eq_none hb
    | gt => simp [drop, lookup, hk, ih hrest]

theorem find?_erase_of_ne [Std.TransCmp (compare (α := κ))] [Std.LawfulEqCmp (compare (α := κ))]
    {m : OrderedMap κ ν} (h : m.Ordered) {k k' : κ} (hne : k' ≠ k) :
    (m.erase k).find? k' = m.find? k' := by
  obtain ⟨l⟩ := m
  simp only [Ordered, find?, erase] at h ⊢
  induction l with
  | nil => rfl
  | cons b rest ih =>
    obtain ⟨k₁, v₁⟩ := b
    obtain ⟨hb, hrest⟩ := List.pairwise_cons.1 h
    cases hk : compare k k₁ with
    | lt => simp [drop, hk]
    | eq =>
      obtain rfl := Std.LawfulEqCmp.eq_of_compare hk
      cases hc : compare k' k with
      | lt =>
        have := lookup_eq_none fun c hc' => Std.TransCmp.lt_trans hc (hb c hc')
        simpa [drop, lookup, hk, hc] using this
      | eq => exact absurd (Std.LawfulEqCmp.eq_of_compare hc) hne
      | gt => simp [drop, lookup, hc]
    | gt => cases hc : compare k' k₁ <;> simp [drop, lookup, hk, hc, ih hrest]

theorem lookup_tail [Std.TransCmp (compare (α := κ))] {b : κ × ν} {rest : List (κ × ν)}
    (h : ∀ c ∈ rest, compare b.1 c.1 = .lt) (k : κ) :
    lookup k rest = if compare k b.1 = .gt then lookup k (b :: rest) else none := by
  cases hc : compare k b.1 with
  | gt => simp [lookup, hc]
  | lt => simpa using lookup_eq_none fun c hc' => Std.TransCmp.lt_trans hc (h c hc')
  | eq => simpa using lookup_eq_none fun c hc' => Std.TransCmp.lt_of_eq_of_lt hc (h c hc')

/-- Maps that answer every look-up alike are equal. -/
theorem eq_of_find?_eq [Std.TransCmp (compare (α := κ))] [Std.LawfulEqCmp (compare (α := κ))]
    {m m' : OrderedMap κ ν} (hm : m.Ordered) (hm' : m'.Ordered)
    (h : ∀ k, m.find? k = m'.find? k) : m = m' := by
  obtain ⟨l⟩ := m
  obtain ⟨l'⟩ := m'
  simp only [Ordered, find?] at hm hm' h
  congr 1
  induction l generalizing l' with
  | nil =>
    cases l' with
    | nil => rfl
    | cons b rest => simpa [lookup, Std.ReflCmp.compare_self] using h b.1
  | cons b rest ih =>
    cases l' with
    | nil => simpa [lookup, Std.ReflCmp.compare_self] using h b.1
    | cons b' rest' =>
      obtain ⟨hb, hrest⟩ := List.pairwise_cons.1 hm
      obtain ⟨hb', hrest'⟩ := List.pairwise_cons.1 hm'
      have hkey : compare b.1 b'.1 = .eq := by
        cases hc : compare b.1 b'.1 with
        | eq => rfl
        | lt => simpa [lookup, Std.ReflCmp.compare_self, hc] using h b.1
        | gt =>
          have hc' := Std.OrientedCmp.lt_of_gt hc
          simpa [lookup, Std.ReflCmp.compare_self, hc'] using h b'.1
      have hk := Std.LawfulEqCmp.eq_of_compare hkey
      have hv : b.2 = b'.2 := by
        simpa [lookup, hk, Std.ReflCmp.compare_self] using h b.1
      obtain rfl : b = b' := Prod.ext hk hv
      congr 1
      refine ih hrest rest' hrest' fun k => ?_
      rw [lookup_tail hb, lookup_tail hb', h k]

/-! ## What is listed -/

theorem mem_bindings_iff [Std.TransCmp (compare (α := κ))] [Std.LawfulEqCmp (compare (α := κ))]
    {m : OrderedMap κ ν} (h : m.Ordered) {k : κ} {v : ν} : (k, v) ∈ m.bindings ↔ m.find? k = some v := by
  refine ⟨fun hmem => ?_, mem_of_find?⟩
  obtain ⟨l⟩ := m
  simp only [Ordered, find?] at h hmem ⊢
  induction l with
  | nil => cases hmem
  | cons b rest ih =>
    obtain ⟨hb, hrest⟩ := List.pairwise_cons.1 h
    rcases List.mem_cons.1 hmem with rfl | hmem
    · simp [lookup, Std.ReflCmp.compare_self]
    · have hgt : compare k b.1 = .gt := Std.OrientedCmp.gt_of_lt (hb _ hmem)
      simpa [lookup, hgt] using ih hrest hmem

theorem mem_keys_iff [Std.TransCmp (compare (α := κ))] [Std.LawfulEqCmp (compare (α := κ))]
    {m : OrderedMap κ ν} (h : m.Ordered) {k : κ} : k ∈ m.keys ↔ ∃ v, m.find? k = some v := by
  simp only [keys, List.mem_map, Prod.exists, exists_and_right, exists_eq_right, mem_bindings_iff h]

theorem nodup_keys [Std.ReflCmp (compare (α := κ))] {m : OrderedMap κ ν} (h : m.Ordered) :
    m.keys.Nodup := by
  refine List.pairwise_map.2 (h.imp fun {a b} hlt heq => ?_)
  have heq : compare a.1 b.1 = .eq := heq ▸ Std.ReflCmp.compare_self
  rw [hlt] at heq
  cases heq

theorem mem_keys_insert [Std.TransCmp (compare (α := κ))] [Std.LawfulEqCmp (compare (α := κ))]
    {m : OrderedMap κ ν} (h : m.Ordered) {k k' : κ} {v : ν} :
    k' ∈ (m.insert k v).keys ↔ k' = k ∨ k' ∈ m.keys := by
  rw [mem_keys_iff (ordered_insert h k v), mem_keys_iff h]
  by_cases hk : k' = k
  · subst hk
    simp [find?_insert_self]
  · simp [hk, find?_insert_of_ne]

theorem perm_put [Std.LawfulEqCmp (compare (α := κ))] {l : List (κ × ν)} {k : κ} (v : ν) (h : k ∉ l.map (·.1)) :
    (put k v l).Perm ((k, v) :: l) := by
  induction l with
  | nil => exact .refl _
  | cons b rest ih =>
    obtain ⟨k', v'⟩ := b
    rw [List.map_cons, List.mem_cons, not_or] at h
    rw [put]
    cases hk : compare k k' with
    | lt => exact .refl _
    | eq => exact absurd (Std.LawfulEqCmp.eq_of_compare hk) h.1
    | gt => exact ((ih h.2).cons _).trans (.swap ..)

theorem perm_foldl_insert [Std.LawfulEqCmp (compare (α := κ))] {pairs : List (κ × ν)} {m : OrderedMap κ ν}
    (h : ((pairs ++ m.bindings).map (·.1)).Nodup) :
    (pairs.foldl (fun m (k, v) => m.insert k v) m).bindings.Perm (pairs ++ m.bindings) := by
  induction pairs generalizing m with
  | nil => exact .refl _
  | cons b rest ih =>
    rw [List.cons_append, List.map_cons, List.nodup_cons, List.map_append, List.mem_append, not_or,
      ← List.map_append] at h
    have hput : (rest ++ (m.insert b.1 b.2).bindings).Perm (b :: (rest ++ m.bindings)) :=
      ((perm_put b.2 h.1.2).append_left rest).trans List.perm_middle
    exact (ih ((hput.map (·.1)).nodup_iff.2 (List.nodup_cons.2 ⟨by simpa using h.1, h.2⟩))).trans hput

/-- Pairs with distinct keys are all bound. -/
theorem perm_ofList [Std.LawfulEqCmp (compare (α := κ))] {pairs : List (κ × ν)}
    (h : (pairs.map (·.1)).Nodup) : (ofList pairs).bindings.Perm pairs := by
  have hperm := perm_foldl_insert (m := empty) (by simpa [empty] using h)
  simpa [ofList, empty] using hperm

/-- Which bindings there are determines their order. -/
theorem eq_of_perm [Std.TransCmp (compare (α := κ))] {l l' : List (κ × ν)}
    (hl : l.Pairwise fun a b => compare a.1 b.1 = .lt) (hl' : l'.Pairwise fun a b => compare a.1 b.1 = .lt)
    (h : l.Perm l') : l = l' :=
  h.eq_of_pairwise (fun a b _ _ hab hba => by
    have hgt := Std.OrientedCmp.gt_of_lt hba
    rw [hab] at hgt
    cases hgt) hl hl'

section Lists

variable [Std.TransCmp (compare (α := κ))] [Std.LawfulEqCmp (compare (α := κ))]

/-- Binding pairs one after another keeps the order, and binds their keys beside those that were there. -/
theorem ordered_foldl_insert {m : OrderedMap κ ν} (h : m.Ordered) (pairs : List (κ × ν)) :
    (pairs.foldl (fun m (k, v) => m.insert k v) m).Ordered ∧
      ∀ k, k ∈ (pairs.foldl (fun m (k, v) => m.insert k v) m).keys ↔
        k ∈ pairs.map (·.1) ∨ k ∈ m.keys := by
  induction pairs generalizing m with
  | nil => exact ⟨h, fun k => by simp⟩
  | cons b rest ih =>
    obtain ⟨hordered, hkeys⟩ := ih (ordered_insert h b.1 b.2)
    refine ⟨hordered, fun k => ?_⟩
    rw [List.foldl_cons, hkeys k, mem_keys_insert h, List.map_cons, List.mem_cons, or_left_comm, or_assoc]

theorem ordered_ofList (pairs : List (κ × ν)) : (ofList pairs).Ordered :=
  (ordered_foldl_insert ordered_empty pairs).1

theorem ofList_bindings {m : OrderedMap κ ν} (h : m.Ordered) : ofList m.bindings = m := by
  obtain ⟨l⟩ := m
  exact congrArg mk (eq_of_perm (ordered_ofList l) h (perm_ofList (nodup_keys h)))

theorem nodup_distinct (ks : List κ) : (distinct ks).Nodup :=
  nodup_keys (ordered_foldl_insert ordered_empty _).1

theorem mem_distinct {ks : List κ} {k : κ} : k ∈ distinct ks ↔ k ∈ ks := by
  have hkeys := (ordered_foldl_insert (ordered_empty (ν := Unit)) (ks.map fun k => (k, ()))).2 k
  rw [List.map_map] at hkeys
  simpa [distinct, ofList, keys, empty, Function.comp_def] using hkeys

end Lists

end OrderedMap

end LintDelta
