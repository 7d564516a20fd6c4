import LintDelta.Proofs.Text.Utf8
import LintDelta.Session

/-!
# Names and extensions of paths

What a path is called is decided by its last component, so a path below a directory keeps its name and its
extension (`extension_join`). The name of a temporary file ends with an extension, and where the middle part
of the name holds neither a dot nor a slash that is the extension of the file (`extension_join_name`).
-/

namespace LintDelta

open Text (Bytes)

namespace Path

/-! ## Components -/

theorem splitSlash_ne_nil (bs : Bytes) : splitSlash bs ≠ [] := by
  cases bs with
  | nil => nofun
  | cons b bs =>
    rw [splitSlash]
    split
    · nofun
    · split <;> nofun

/-- A slash separates what is before it from what is after it. -/
theorem splitSlash_append_slash (a c : Bytes) : splitSlash (a ++ slash :: c) = splitSlash a ++ splitSlash c := by
  induction a with
  | nil => exact if_pos rfl
  | cons b bs ih =>
    rw [List.cons_append, splitSlash, splitSlash, ih]
    split
    · rfl
    · cases h : splitSlash bs with
      | nil => exact absurd h (splitSlash_ne_nil bs)
      | cons part parts => rfl

theorem splitSlash_of_not_mem {bs : Bytes} (h : slash ∉ bs) : splitSlash bs = [bs] := by
  induction bs with
  | nil => rfl
  | cons b bs ih =>
    obtain ⟨hb, hbs⟩ := not_or.1 (mt List.mem_cons.2 h)
    rw [splitSlash, if_neg (Ne.symm hb), ih hbs]

theorem slash_not_mem_of_mem_splitSlash {bs part : Bytes} (h : part ∈ splitSlash bs) : slash ∉ part := by
  induction bs generalizing part with
  | nil =>
    obtain rfl := List.mem_singleton.1 h
    exact List.not_mem_nil
  | cons b bs ih =>
    rw [splitSlash] at h
    split at h
    · rcases List.mem_cons.1 h with rfl | h
      · exact List.not_mem_nil
      · exact ih h
    · next hb =>
      split at h
      · next hnil => exact absurd hnil (splitSlash_ne_nil bs)
      · next first rest hsplit =>
        rcases List.mem_cons.1 h with rfl | h
        · exact fun hmem => (List.mem_cons.1 hmem).elim (Ne.symm hb) (ih (hsplit ▸ List.mem_cons_self))
        · exact ih (hsplit ▸ List.mem_cons_of_mem _ h)

theorem components_append_slash (a c : Bytes) :
    components ⟨a ++ slash :: c⟩ = components ⟨a⟩ ++ components ⟨c⟩ := by
  rw [components, splitSlash_append_slash, List.filter_append]
  rfl

/-- A relative path below a directory has the components of both. -/
theorem components_join {directory p : Path} (h : p.isAbsolute = false) :
    (directory.join p).components = directory.components ++ p.components := by
  rw [join, if_neg (by rw [h]; nofun)]
  split
  · next hdir =>
    rcases Bool.or_eq_true_iff.1 hdir with hempty | hslash
    · have hdirectory : directory.components = [] := by
        rw [components, List.isEmpty_iff.1 hempty]
        rfl
      rw [hdirectory, List.isEmpty_iff.1 hempty]
      rfl
    · -- the slash at the end of the directory is the one between the two
      obtain ⟨front, hfront⟩ := List.getLast?_eq_some_iff.1 (beq_iff_eq.1 hslash)
      have hdirectory : directory.components = components ⟨front⟩ := by
        rw [components, hfront]
        exact (components_append_slash front []).trans (List.append_nil _)
      rw [hdirectory, hfront, List.append_assoc]
      exact components_append_slash front p.bytes
  · exact components_append_slash directory.bytes p.bytes

/-! ## Names -/

theorem fileName_join {directory p : Path} (h : p.components ≠ []) : (directory.join p).fileName = p.fileName := by
  cases habs : p.isAbsolute with
  | true => rw [join, if_pos habs]
  | false => rw [fileName, components_join habs, List.getLast?_append_of_ne_nil _ h, fileName]

/-- **A path below a directory keeps its extension**, if it names anything. -/
theorem extension_join {directory p : Path} (h : p.components ≠ []) :
    (directory.join p).extension = p.extension := by
  rw [extension, fileName_join h, extension]

theorem components_ne_nil_of_fileName {p : Path} {name : Bytes} (h : p.fileName = some name) :
    p.components ≠ [] := by
  intro hnil
  rw [fileName, hnil] at h
  cases h

theorem slash_not_mem_of_fileName {p : Path} {name : Bytes} (h : p.fileName = some name) : slash ∉ name := by
  unfold fileName at h
  split at h
  · next last hlast =>
    split at h <;> cases h
    exact slash_not_mem_of_mem_splitSlash (List.mem_filter.1 (List.mem_of_getLast? hlast)).1
  · cases h

/-! ## The last dot -/

theorem cutLastDot_eq_none_iff {name : Bytes} : cutLastDot name = none ↔ dot ∉ name := by
  induction name with
  | nil => exact ⟨fun _ => List.not_mem_nil, fun _ => rfl⟩
  | cons b bs ih =>
    rw [cutLastDot, List.mem_cons, not_or, ← ih, eq_comm (a := dot)]
    cases cutLastDot bs with
    | some cut => simp
    | none => by_cases hb : b = dot <;> simp [hb]

/-- A name is cut at a dot if no dot follows. -/
theorem cutLastDot_append_dot (stem : Bytes) {ext : Bytes} (h : dot ∉ ext) :
    cutLastDot (stem ++ dot :: ext) = some (stem, ext) := by
  induction stem with
  | nil =>
    rw [List.nil_append, cutLastDot, cutLastDot_eq_none_iff.2 h]
    exact if_pos rfl
  | cons b bs ih => rw [List.cons_append, cutLastDot, ih]

theorem eq_of_cutLastDot {name stem ext : Bytes} (h : cutLastDot name = some (stem, ext)) :
    name = stem ++ dot :: ext ∧ dot ∉ ext := by
  induction name generalizing stem with
  | nil => cases h
  | cons b bs ih =>
    rw [cutLastDot] at h
    cases hcut : cutLastDot bs with
    | some cut =>
      rw [hcut] at h
      cases h
      obtain ⟨hbs, hext⟩ := ih hcut
      exact ⟨by rw [hbs, List.cons_append], hext⟩
    | none =>
      rw [hcut] at h
      obtain ⟨rfl, heq⟩ := Option.ite_none_right_eq_some.1 h
      cases heq
      exact ⟨rfl, cutLastDot_eq_none_iff.1 hcut⟩

/-! ## Extensions of new names -/

/-- A name that starts with another byte than a dot and holds no slash is the name of its path. -/
theorem fileName_of_head {b : UInt8} {name : Bytes} (hb : b ≠ dot) (hname : slash ∉ b :: name) :
    fileName ⟨b :: name⟩ = some (b :: name) := by
  have hdot : b :: name ≠ [dot] ∧ b :: name ≠ [dot, dot] := by simp [hb]
  have hcomponents : components ⟨b :: name⟩ = [b :: name] := by
    rw [components, splitSlash_of_not_mem hname, List.filter_singleton]
    simp [hdot.1]
  rw [fileName, hcomponents, List.getLast?_singleton]
  exact if_neg hdot.2

theorem extension_of_cut {p : Path} {name stem ext : Bytes} (hname : p.fileName = some name)
    (hcut : cutLastDot name = some (stem, ext)) :
    p.extension = if stem = [] then none else (Text.decode? ext).map ("." ++ ·) := by
  simp only [extension, hname, hcut, Option.bind_eq_bind, Option.bind_some, List.isEmpty_iff]
  split
  · rfl
  · exact Option.map_eq_bind.symm

theorem extension_of_not_mem {p : Path} {name : Bytes} (hname : p.fileName = some name) (h : dot ∉ name) :
    p.extension = none := by
  rw [extension, hname, Option.bind_eq_bind, Option.bind_some, cutLastDot_eq_none_iff.2 h]
  rfl

/-- An extension is a dot and the text of the bytes that follow the last dot of the name. -/
theorem exists_of_extension {p : Path} {e : String} (h : p.extension = some e) :
    ∃ ext text, Text.encode e = dot :: ext ∧ dot ∉ ext ∧ slash ∉ ext ∧ Text.decode? ext = some text ∧
      e = "." ++ text := by
  obtain ⟨name, hname, -⟩ := Option.bind_eq_some_iff.1 h
  cases hcut : cutLastDot name with
  | none =>
    rw [extension_of_not_mem hname (cutLastDot_eq_none_iff.1 hcut)] at h
    cases h
  | some cut =>
    obtain ⟨stem, ext⟩ := cut
    obtain ⟨rfl, hext⟩ := eq_of_cutLastDot hcut
    rw [extension_of_cut hname hcut, Option.ite_none_left_eq_some] at h
    obtain ⟨text, htext, rfl⟩ := Option.map_eq_some_iff.1 h.2
    have hslash : slash ∉ ext := fun hmem =>
      slash_not_mem_of_fileName hname (List.mem_append_right _ (List.mem_cons_of_mem _ hmem))
    refine ⟨ext, text, ?_, hext, hslash, htext, rfl⟩
    rw [Text.encode_append, Text.encode_of_decode? htext]
    rfl

/-- **A temporary file has the extension of the file that it stands for**, if the rest of its name holds neither
a dot nor a slash. -/
theorem extension_join_name {directory p : Path} {start token : String} (hstart : Text.encode start ≠ [])
    (hchars : ∀ c ∈ start.toList ++ token.toList, c ≠ '.' ∧ c ≠ '/') :
    (directory.join (TempDirectory.name start token (p.extension.getD ""))).extension = p.extension := by
  have hfront : ∀ b ∈ Text.encode (start ++ token), b ≠ dot ∧ b ≠ slash := by
    refine fun b hb => ⟨?_, ?_⟩ <;> rintro rfl
    · exact (hchars '.' (String.toList_append ▸ Text.mem_toList_of_mem_encode (by decide) hb)).1 rfl
    · exact (hchars '/' (String.toList_append ▸ Text.mem_toList_of_mem_encode (by decide) hb)).2 rfl
  obtain ⟨first, rest, hfirst⟩ : ∃ b bs, Text.encode (start ++ token) = b :: bs :=
    List.exists_cons_of_ne_nil (by rw [Text.encode_append]; exact List.append_ne_nil_of_left_ne_nil hstart _)
  have hne : first ≠ dot := (hfront first (hfirst ▸ List.mem_cons_self)).1
  -- whatever the name ends with, it is the name of the path
  have hname (ending : String) (hending : slash ∉ Text.encode ending) :
      (directory.join (TempDirectory.name start token ending)).fileName =
        some (first :: rest ++ Text.encode ending) := by
    have hpath : TempDirectory.name start token ending = ⟨first :: (rest ++ Text.encode ending)⟩ := by
      rw [TempDirectory.name, ofString, Text.encode_append, hfirst, List.cons_append]
    have hslash : slash ∉ first :: (rest ++ Text.encode ending) := by
      rw [← List.cons_append, ← hfirst]
      exact fun hmem => (List.mem_append.1 hmem).elim (fun hmem => (hfront _ hmem).2 rfl) hending
    have hown := fileName_of_head hne hslash
    rw [hpath, fileName_join (components_ne_nil_of_fileName hown), hown, List.cons_append]
  cases hext : p.extension with
  | none =>
    refine extension_of_not_mem (hname "" List.not_mem_nil) fun hmem => ?_
    rw [show Text.encode "" = [] from rfl, List.append_nil, ← hfirst] at hmem
    exact (hfront _ hmem).1 rfl
  | some e =>
    obtain ⟨ext, text, hencode, hdot, hslash, htext, rfl⟩ := exists_of_extension hext
    have hending : slash ∉ Text.encode ("." ++ text) := by
      rw [hencode]
      exact fun hmem => (List.mem_cons.1 hmem).elim (by decide) hslash
    have hcut := cutLastDot_append_dot (first :: rest) hdot
    rw [← hencode] at hcut
    rw [Option.getD_some, extension_of_cut (hname _ hending) hcut, if_neg (List.cons_ne_nil _ _), htext]
    rfl

end Path

end LintDelta
