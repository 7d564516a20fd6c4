import LintDelta.Text.Utf8
import Mathlib.Data.UInt
import Mathlib.Order.Basic

/-!
# Laws of UTF-8

Decoding goes character by character (`decodeStep`). What a step takes is settled by its first bytes, so an ASCII
byte starts a character of its own whatever stands before it (`decode_append_ascii`), and the character that a
step takes is spelled by the bytes that it took (`encode_of_decode?`). The other way round a step takes a whole
character, so the bytes of a text are well formed (`decode?_encode`). Encoding keeps the order of texts
(`encode_lt_encode`).
-/

namespace LintDelta.Text

/-! ## Bytes inside a character -/

theorem isContinuation_iff {b : UInt8} : isContinuation b = true ↔ 0x80 ≤ b.toNat ∧ b.toNat ≤ 0xBF := by
  simp [isContinuation, UInt8.le_iff_toNat_le]

theorem isContinuation_ofNat {n : Nat} (h : 0x80 ≤ n ∧ n ≤ 0xBF) : isContinuation (UInt8.ofNat n) = true := by
  rw [isContinuation_iff, UInt8.toNat_ofNat', Nat.mod_eq_of_lt (by omega)]
  exact h

/-- What may follow a first byte: no short form, no surrogate and nothing past U+10FFFF. -/
theorem bounds_of_isSecond {a b : UInt8} (h : isSecond a b = true) :
    0x80 ≤ b.toNat ∧ b.toNat ≤ 0xBF ∧ (a.toNat = 0xE0 → 0xA0 ≤ b.toNat) ∧ (a.toNat = 0xED → b.toNat ≤ 0x9F) ∧
      (a.toNat = 0xF0 → 0x90 ≤ b.toNat) ∧ (a.toNat = 0xF4 → b.toNat ≤ 0x8F) := by
  unfold isSecond at h
  repeat' split at h
  all_goals
    simp only [isContinuation, Bool.and_eq_true, decide_eq_true_eq, UInt8.le_iff_toNat_le, ← UInt8.toNat_inj,
      UInt8.reduceToNat] at *
    omega

theorem isSecond_of_bounds {a b : UInt8} (h : 0x80 ≤ b.toNat ∧ b.toNat ≤ 0xBF ∧ (a.toNat = 0xE0 → 0xA0 ≤ b.toNat) ∧
    (a.toNat = 0xED → b.toNat ≤ 0x9F) ∧ (a.toNat = 0xF0 → 0x90 ≤ b.toNat) ∧ (a.toNat = 0xF4 → b.toNat ≤ 0x8F)) :
    isSecond a b = true := by
  unfold isSecond
  repeat' split
  all_goals
    simp only [isContinuation, Bool.and_eq_true, decide_eq_true_eq, UInt8.le_iff_toNat_le, ← UInt8.toNat_inj,
      UInt8.reduceToNat] at *
    omega

theorem isContinuation_of_ascii {b : UInt8} (h : b < 0x80) : isContinuation b = false :=
  Bool.eq_false_iff.2 fun hb => by
    have hlt : b.toNat < 0x80 := UInt8.lt_iff_toNat_lt.1 h
    have hle := isContinuation_iff.1 hb
    omega

theorem isSecond_of_ascii (a : UInt8) {b : UInt8} (h : b < 0x80) : isSecond a b = false :=
  Bool.eq_false_iff.2 fun hb => by
    have hlt : b.toNat < 0x80 := UInt8.lt_iff_toNat_lt.1 h
    have hle := bounds_of_isSecond hb
    omega

/-! ## One step -/

/-- The first character that bytes spell, or `none` for an ill-formed stretch, and the bytes behind it. -/
def decodeStep (a : UInt8) (rest : Bytes) : Option Char × Bytes :=
  if a < 0x80 then (some (Char.ofNat a.toNat), rest)
  else match rest with
    | [] => (none, [])
    | b :: rest₂ =>
      if 0xC2 ≤ a && a ≤ 0xDF then
        if isContinuation b then (some (Char.ofNat (a.toNat % 32 * 64 + payload b)), rest₂)
        else (none, b :: rest₂)
      else if 0xE0 ≤ a && a ≤ 0xEF && isSecond a b then
        match rest₂ with
        | [] => (none, [])
        | c :: rest₃ =>
          if isContinuation c then
            (some (Char.ofNat (a.toNat % 16 * 4096 + payload b * 64 + payload c)), rest₃)
          else (none, c :: rest₃)
      else if 0xF0 ≤ a && a ≤ 0xF4 && isSecond a b then
        match rest₂ with
        | [] => (none, [])
        | c :: rest₃ =>
          if isContinuation c then
            match rest₃ with
            | [] => (none, [])
            | d :: rest₄ =>
              if isContinuation d then
                (some (Char.ofNat (a.toNat % 8 * 262144 + payload b * 4096 + payload c * 64 + payload d)), rest₄)
              else (none, d :: rest₄)
          else (none, c :: rest₃)
      else (none, b :: rest₂)

theorem decode_cons (a : UInt8) (rest : Bytes) :
    decode (a :: rest) = (decodeStep a rest).1 :: decode (decodeStep a rest).2 := by
  rw [decode.eq_def]
  dsimp only
  unfold decodeStep
  split
  · rfl
  rcases rest with _ | ⟨b, _ | ⟨c, _ | ⟨d, rest⟩⟩⟩ <;> dsimp only
  · rw [decode]
  all_goals
    repeat' split
    all_goals rfl

theorem length_decodeStep (a : UInt8) (rest : Bytes) : (decodeStep a rest).2.length ≤ rest.length := by
  unfold decodeStep
  repeat' split
  all_goals simp only [List.length_cons]
  all_goals omega

/-- A step takes no ASCII byte but its first one. -/
theorem decodeStep_append_ascii (a : UInt8) {b : UInt8} (hb : b < 0x80) (x y : Bytes) :
    decodeStep a (x ++ b :: y) = ((decodeStep a x).1, (decodeStep a x).2 ++ b :: y) := by
  have hc := isContinuation_of_ascii hb
  have hs := isSecond_of_ascii a hb
  unfold decodeStep
  split
  · rfl
  rcases x with _ | ⟨b₁, _ | ⟨b₂, _ | ⟨b₃, x⟩⟩⟩
  · simp [hc, hs]
  all_goals
    simp only [List.cons_append, List.nil_append, hc, Bool.false_eq_true, if_false]
    repeat' split
    all_goals rfl

/-- **An ASCII byte is a character of its own**, whatever stands before it. -/
theorem decode_append_ascii {b : UInt8} (hb : b < 0x80) (x y : Bytes) :
    decode (x ++ b :: y) = decode x ++ decode (b :: y) := by
  induction hn : x.length using Nat.strong_induction_on generalizing x with
  | _ n ih =>
    cases x with
    | nil => rw [decode, List.nil_append, List.nil_append]
    | cons a x =>
      have hlt := length_decodeStep a x
      rw [List.cons_append, decode_cons, decodeStep_append_ascii a hb, decode_cons a x,
        ih _ (by rw [List.length_cons] at hn; omega) _ rfl]
      rfl

theorem decodeLossy_append_newline (x y : Bytes) :
    decodeLossy (x ++ 10 :: y) = decodeLossy x ++ "\n" ++ decodeLossy y := by
  have hstep : decodeStep 10 y = (some '\n', y) := rfl
  rw [decodeLossy, decode_append_ascii (by decide), decode_cons, hstep, List.map_append, List.map_cons,
    String.ofList_append, decodeLossy, decodeLossy, String.append_assoc, ← String.toList_inj]
  simp

/-! ## There and back -/

theorem toNat_val_ofNat {n : Nat} (h : n.isValidChar) : (Char.ofNat n).val.toNat = n := by
  unfold Char.ofNat
  rw [dif_pos h]
  rfl

theorem ofNat_eq {n : Nat} {b : UInt8} (h : n = b.toNat) : UInt8.ofNat n = b := by
  rw [h, UInt8.ofNat_toNat]

theorem utf8EncodeChar_one {a : UInt8} (ha : a.toNat < 0x80) : String.utf8EncodeChar (Char.ofNat a.toNat) = [a] := by
  rw [String.utf8EncodeChar, toNat_val_ofNat (Or.inl (by omega)), if_pos (by omega), ofNat_eq rfl]

theorem utf8EncodeChar_two {a b : UInt8} (ha : 0xC2 ≤ a.toNat ∧ a.toNat ≤ 0xDF) (hb : isContinuation b = true) :
    String.utf8EncodeChar (Char.ofNat (a.toNat % 32 * 64 + payload b)) = [a, b] := by
  have hb := isContinuation_iff.1 hb
  dsimp only [payload]
  rw [String.utf8EncodeChar, toNat_val_ofNat (Or.inl (by omega)), if_neg (by omega), if_pos (by omega),
    ofNat_eq (b := a) (by omega), ofNat_eq (b := b) (by omega)]

theorem utf8EncodeChar_three {a b c : UInt8} (ha : 0xE0 ≤ a.toNat ∧ a.toNat ≤ 0xEF) (hb : isSecond a b = true)
    (hc : isContinuation c = true) :
    String.utf8EncodeChar (Char.ofNat (a.toNat % 16 * 4096 + payload b * 64 + payload c)) = [a, b, c] := by
  have hb := bounds_of_isSecond hb
  have hc := isContinuation_iff.1 hc
  dsimp only [payload]
  rw [String.utf8EncodeChar, toNat_val_ofNat (by unfold Nat.isValidChar; omega), if_neg (by omega),
    if_neg (by omega), if_pos (by omega), ofNat_eq (b := a) (by omega), ofNat_eq (b := b) (by omega),
    ofNat_eq (b := c) (by omega)]

theorem utf8EncodeChar_four {a b c d : UInt8} (ha : 0xF0 ≤ a.toNat ∧ a.toNat ≤ 0xF4) (hb : isSecond a b = true)
    (hc : isContinuation c = true) (hd : isContinuation d = true) :
    String.utf8EncodeChar (Char.ofNat (a.toNat % 8 * 262144 + payload b * 4096 + payload c * 64 + payload d)) =
      [a, b, c, d] := by
  have hb := bounds_of_isSecond hb
  have hc := isContinuation_iff.1 hc
  have hd := isContinuation_iff.1 hd
  dsimp only [payload]
  rw [String.utf8EncodeChar, toNat_val_ofNat (by unfold Nat.isValidChar; omega), if_neg (by omega),
    if_neg (by omega), if_neg (by omega), ofNat_eq (b := a) (by omega), ofNat_eq (b := b) (by omega),
    ofNat_eq (b := c) (by omega), ofNat_eq (b := d) (by omega)]

/-- A character that a step takes is spelled by the bytes that the step took. -/
theorem utf8EncodeChar_of_decodeStep {a : UInt8} {rest rest' : Bytes} {c : Char}
    (h : decodeStep a rest = (some c, rest')) : String.utf8EncodeChar c ++ rest' = a :: rest := by
  unfold decodeStep at h
  simp only [Bool.and_eq_true, decide_eq_true_eq, UInt8.le_iff_toNat_le, UInt8.reduceToNat] at h
  split at h
  · next ha =>
    cases h
    rw [utf8EncodeChar_one (UInt8.lt_iff_toNat_lt.1 ha)]
    rfl
  rcases rest with _ | ⟨b, rest⟩
  · cases h
  dsimp only at h
  split at h
  · next ha =>
    split at h
    · next hb =>
      cases h
      rw [utf8EncodeChar_two ha hb]
      rfl
    · cases h
  split at h
  · next hab =>
    rcases rest with _ | ⟨c, rest⟩
    · cases h
    dsimp only at h
    split at h
    · next hc =>
      cases h
      rw [utf8EncodeChar_three hab.1 hab.2 hc]
      rfl
    · cases h
  split at h
  · next hab =>
    rcases rest with _ | ⟨c, _ | ⟨d, rest⟩⟩ <;> dsimp only at h
    · cases h
    · split at h <;> cases h
    · split at h
      · next hc =>
        split at h
        · next hd =>
          cases h
          rw [utf8EncodeChar_four hab.1 hab.2 hc hd]
          rfl
        · cases h
      · cases h
  · cases h

/-- **Bytes that are well formed are those of their text.** -/
theorem encode_of_decode? {bytes : Bytes} {s : String} (h : decode? bytes = some s) : encode s = bytes := by
  obtain ⟨cs, hcs, rfl⟩ := Option.map_eq_some_iff.1 h
  rw [encode, String.toList_ofList]
  clear h
  induction hn : bytes.length using Nat.strong_induction_on generalizing bytes cs with
  | _ n ih =>
    cases bytes with
    | nil =>
      rw [decode] at hcs
      cases hcs
      rfl
    | cons a rest =>
      have hlt := length_decodeStep a rest
      rw [decode_cons, List.mapM_cons] at hcs
      obtain ⟨c, hc, hcs⟩ := Option.bind_eq_some_iff.1 hcs
      obtain ⟨cs', hcs', hcs⟩ := Option.bind_eq_some_iff.1 hcs
      cases hcs
      have hrest := ih _ (by rw [List.length_cons] at hn; omega) cs' hcs' rfl
      rw [List.flatMap_cons, hrest]
      exact utf8EncodeChar_of_decodeStep (Prod.ext hc rfl)

theorem decodeStep_one {a : UInt8} (ha : a.toNat < 0x80) (rest : Bytes) :
    decodeStep a rest = (some (Char.ofNat a.toNat), rest) :=
  if_pos (UInt8.lt_iff_toNat_lt.2 ha)

theorem decodeStep_two {a b : UInt8} (ha : 0xC2 ≤ a.toNat ∧ a.toNat ≤ 0xDF) (hb : isContinuation b = true)
    (rest : Bytes) : decodeStep a (b :: rest) = (some (Char.ofNat (a.toNat % 32 * 64 + payload b)), rest) := by
  simp only [decodeStep, Bool.and_eq_true, decide_eq_true_eq, UInt8.le_iff_toNat_le, UInt8.lt_iff_toNat_lt,
    UInt8.reduceToNat]
  rw [if_neg (by omega), if_pos ha, if_pos hb]

theorem decodeStep_three {a b c : UInt8} (ha : 0xE0 ≤ a.toNat ∧ a.toNat ≤ 0xEF) (hb : isSecond a b = true)
    (hc : isContinuation c = true) (rest : Bytes) : decodeStep a (b :: c :: rest) =
      (some (Char.ofNat (a.toNat % 16 * 4096 + payload b * 64 + payload c)), rest) := by
  simp only [decodeStep, Bool.and_eq_true, decide_eq_true_eq, UInt8.le_iff_toNat_le, UInt8.lt_iff_toNat_lt,
    UInt8.reduceToNat]
  rw [if_neg (by omega), if_neg (by omega), if_pos ⟨ha, hb⟩, if_pos hc]

theorem decodeStep_four {a b c d : UInt8} (ha : 0xF0 ≤ a.toNat ∧ a.toNat ≤ 0xF4) (hb : isSecond a b = true)
    (hc : isContinuation c = true) (hd : isContinuation d = true) (rest : Bytes) :
    decodeStep a (b :: c :: d :: rest) =
      (some (Char.ofNat (a.toNat % 8 * 262144 + payload b * 4096 + payload c * 64 + payload d)), rest) := by
  simp only [decodeStep, Bool.and_eq_true, decide_eq_true_eq, UInt8.le_iff_toNat_le, UInt8.lt_iff_toNat_lt,
    UInt8.reduceToNat]
  rw [if_neg (by omega), if_neg (by omega), if_neg (by omega), if_pos ⟨ha, hb⟩, if_pos hc, if_pos hd]

/-- A character is what a step takes from its bytes. -/
theorem decodeStep_of_utf8EncodeChar {c : Char} {a : UInt8} {bytes : Bytes} (h : String.utf8EncodeChar c = a :: bytes)
    (rest : Bytes) : decodeStep a (bytes ++ rest) = (some c, rest) := by
  have hvalid := c.valid
  unfold UInt32.isValidChar Nat.isValidChar at hvalid
  have hc : Char.ofNat c.val.toNat = c := Char.ofNat_toNat c
  unfold String.utf8EncodeChar at h
  dsimp only at h
  generalize c.val.toNat = v at hvalid hc h
  subst hc
  have hbyte (n : Nat) (hn : n < 256) : (UInt8.ofNat n).toNat = n := UInt8.toNat_ofNat_of_lt hn
  -- characters of one, two, three and four bytes; that no surrogate is a character settles the second byte of three
  split at h
  · cases h
    have ha := hbyte v (by omega)
    rw [List.nil_append, decodeStep_one (by omega), ha]
  split at h
  · cases h
    have ha := hbyte (v / 64 % 32 + 192) (by omega)
    have hb := hbyte (v % 64 + 128) (by omega)
    rw [List.cons_append, List.nil_append, decodeStep_two (by omega) (isContinuation_ofNat (by omega)), payload, ha, hb]
    congr 3
    omega
  split at h
  · cases h
    have ha := hbyte (v / 4096 % 16 + 224) (by omega)
    have hb := hbyte (v / 64 % 64 + 128) (by omega)
    have hc := hbyte (v % 64 + 128) (by omega)
    rw [List.cons_append, List.cons_append, List.nil_append,
      decodeStep_three (by omega) (isSecond_of_bounds (by omega)) (isContinuation_ofNat (by omega)), payload, payload,
      ha, hb, hc]
    congr 3
    omega
  · cases h
    have ha := hbyte (v / 262144 % 8 + 240) (by omega)
    have hb := hbyte (v / 4096 % 64 + 128) (by omega)
    have hc := hbyte (v / 64 % 64 + 128) (by omega)
    have hd := hbyte (v % 64 + 128) (by omega)
    rw [List.cons_append, List.cons_append, List.cons_append, List.nil_append,
      decodeStep_four (by omega) (isSecond_of_bounds (by omega)) (isContinuation_ofNat (by omega))
        (isContinuation_ofNat (by omega)), payload, payload, payload, ha, hb, hc, hd]
    congr 3
    omega

/-- **The bytes of a text are well formed**, and they spell it. -/
theorem decode?_encode (s : String) : decode? (encode s) = some s := by
  have hdecode : (decode (encode s)).mapM id = some s.toList := by
    rw [encode]
    induction s.toList with
    | nil => rw [List.flatMap_nil, decode, List.mapM_nil]; rfl
    | cons c cs ih =>
      obtain ⟨a, bytes, hbytes⟩ := List.exists_cons_of_ne_nil (String.utf8EncodeChar_ne_nil (c := c))
      rw [List.flatMap_cons, hbytes, List.cons_append, decode_cons, decodeStep_of_utf8EncodeChar hbytes,
        List.mapM_cons, ih]
      rfl
  rw [decode?, hdecode, Option.map_some, String.ofList_toList]

/-! ## ASCII in texts -/

theorem encode_append (s t : String) : encode (s ++ t) = encode s ++ encode t := by
  rw [encode, String.toList_append, List.flatMap_append, encode, encode]

/-- An ASCII byte is no part of a longer character. -/
theorem toNat_of_mem_utf8EncodeChar {c : Char} {b : UInt8} (hb : b < 0x80)
    (h : b ∈ String.utf8EncodeChar c) : c.val.toNat = b.toNat := by
  have hc := c.valid
  unfold UInt32.isValidChar Nat.isValidChar at hc
  have hb : b.toNat < 128 := hb
  unfold String.utf8EncodeChar at h
  dsimp only at h
  repeat' split at h
  all_goals
    simp only [List.mem_cons, List.not_mem_nil, or_false, ← UInt8.toNat_inj, UInt8.toNat_ofNat'] at h
    omega

/-- An ASCII byte of a text is a character of it. -/
theorem mem_toList_of_mem_encode {s : String} {b : UInt8} (hb : b < 0x80) (h : b ∈ encode s) :
    Char.ofNat b.toNat ∈ s.toList := by
  obtain ⟨c, hc, hmem⟩ := List.mem_flatMap.1 h
  rw [← toNat_of_mem_utf8EncodeChar hb hmem]
  exact (Char.ofNat_toNat c).symm ▸ hc

/-! ## Order -/

/-- The order of numbers is that of their digits to the base of 64. -/
theorem digits_lt {v w : Nat} (h : v < w) : v / 262144 < w / 262144 ∨ v / 262144 = w / 262144 ∧
    (v / 4096 % 64 < w / 4096 % 64 ∨ v / 4096 % 64 = w / 4096 % 64 ∧
      (v / 64 % 64 < w / 64 % 64 ∨ v / 64 % 64 = w / 64 % 64 ∧ v % 64 < w % 64)) := by
  have h64 : v / 64 < w / 64 ∨ v / 64 = w / 64 ∧ v % 64 < w % 64 := by omega
  have h4096 : v / 4096 < w / 4096 ∨ v / 4096 = w / 4096 ∧ v / 64 % 64 ≤ w / 64 % 64 := by omega
  have h262144 : v / 262144 < w / 262144 ∨ v / 262144 = w / 262144 ∧ v / 4096 % 64 ≤ w / 4096 % 64 := by omega
  omega

/-- Of two characters the bytes of the first come before those of the second, whatever follows. -/
theorem utf8EncodeChar_lt {c d : Char} (h : c < d) (x y : Bytes) :
    String.utf8EncodeChar c ++ x < String.utf8EncodeChar d ++ y := by
  have hlt : c.val.toNat < d.val.toNat := UInt32.lt_iff_toNat_lt.1 h
  have hdigits := digits_lt hlt
  have hd := d.valid
  unfold UInt32.isValidChar Nat.isValidChar at hd
  unfold String.utf8EncodeChar
  dsimp only
  repeat' split
  all_goals
    simp (disch := omega) only [List.cons_append, List.nil_append, List.cons_lt_cons_iff, UInt8.lt_iff_toNat_lt,
      ← UInt8.toNat_inj, UInt8.toNat_ofNat', Nat.mod_eq_of_lt]
    omega

/-- **Encoding keeps the order.** -/
theorem encode_lt_encode {s t : String} (h : s < t) : encode s < encode t := by
  have hchars : s.toList < t.toList := h
  unfold encode
  generalize s.toList = cs at hchars
  generalize t.toList = ds at hchars
  clear h
  induction cs generalizing ds with
  | nil =>
    cases ds with
    | nil => exact absurd hchars (List.lt_irrefl _)
    | cons d ds =>
      rw [List.flatMap_nil, List.flatMap_cons]
      cases hbytes : String.utf8EncodeChar d with
      | nil => exact absurd hbytes String.utf8EncodeChar_ne_nil
      | cons a bytes => exact List.nil_lt_cons _ _
  | cons c cs ih =>
    cases ds with
    | nil => exact absurd hchars (List.not_lt_nil _)
    | cons d ds =>
      rw [List.flatMap_cons, List.flatMap_cons]
      rcases List.cons_lt_cons_iff.1 hchars with hlt | ⟨rfl, hrest⟩
      · exact utf8EncodeChar_lt hlt _ _
      · exact List.append_left_lt (ih _ hrest)

end LintDelta.Text
