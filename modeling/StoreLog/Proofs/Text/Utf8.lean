-- SUMMARY: Decoding undoes encoding, and encoding keeps the order of texts.
import StoreLog.Text.Utf8

/-!
# UTF-8 round trip and order

`decode` reads exactly what `encode` writes, so each text has one spelling in
bytes. An ASCII byte stands in a spelling only for its own character, and the
order of spellings is the order of texts.
-/

namespace StoreLog.Utf8

open String (utf8EncodeChar)

/-! ## Tail bytes and second bytes -/

private theorem isTail_iff {b : UInt8} : isTail b = true ↔ 128 ≤ b.toNat ∧ b.toNat < 192 := by
  simp only [isTail, UInt8.le_iff_toNat_le, UInt8.reduceToNat, Bool.and_eq_true, decide_eq_true_eq]
  omega

private theorem isSecond_iff {a b : UInt8} : isSecond a b = true ↔ isTail b = true ∧
    (a.toNat = 0xE0 → 0xA0 ≤ b.toNat) ∧ (a.toNat = 0xED → b.toNat < 0xA0) ∧
    (a.toNat = 0xF0 → 0x90 ≤ b.toNat) ∧ (a.toNat = 0xF4 → b.toNat < 0x90) := by
  simp only [isSecond, beq_iff_eq, ← UInt8.toNat_inj, UInt8.reduceToNat]
  repeat' split
  all_goals
    simp only [isTail_iff, UInt8.le_iff_toNat_le, UInt8.reduceToNat, Bool.and_eq_true,
      decide_eq_true_eq]
    omega

private theorem tailBits_eq (b : UInt8) : tailBits b = b.toNat - 128 := by
  unfold tailBits
  rfl

/-- The tail byte that carries the lowest six bits of a number. -/
private theorem toNat_tail (n : Nat) : (UInt8.ofNat (n % 64 + 128)).toNat = n % 64 + 128 := by
  rw [UInt8.toNat_ofNat']
  omega

private theorem isTail_tail (n : Nat) : isTail (UInt8.ofNat (n % 64 + 128)) = true :=
  isTail_iff.2 (by rw [toNat_tail]; omega)

private theorem tailBits_tail (n : Nat) : tailBits (UInt8.ofNat (n % 64 + 128)) = n % 64 := by
  rw [tailBits_eq, toNat_tail, Nat.add_sub_cancel]

/-! ## One character -/

private theorem toNat_lt (c : Char) :
    c.toNat < 0xD800 ∨ (0xDFFF < c.toNat ∧ c.toNat < 0x110000) :=
  c.valid

private theorem val_ofNat {n : Nat} (h : n < 0xD800 ∨ (0xDFFF < n ∧ n < 0x110000)) :
    (Char.ofNat n).val.toNat = n := by
  unfold Char.ofNat
  rw [dif_pos h]
  rfl

private theorem ofNat_toNat_of_eq {b : UInt8} {m : Nat} (h : b.toNat = m) : UInt8.ofNat m = b := by
  rw [← h, UInt8.ofNat_toNat]

private theorem lead_one {a : UInt8} (r : Bytes) (h : a.toNat < 0x80) :
    lead a r = (some (Char.ofNat a.toNat), 0) := by
  rw [lead.eq_def, if_pos (UInt8.lt_iff_toNat_lt.2 h)]

private theorem lead_two {a b : UInt8} (r : Bytes) (ha : 0xC2 ≤ a.toNat) (ha' : a.toNat < 0xE0)
    (hb : isTail b = true) :
    lead a (b :: r) = (some (Char.ofNat ((a.toNat - 0xC0) * 64 + tailBits b)), 1) := by
  simp only [lead, UInt8.lt_iff_toNat_lt, UInt8.reduceToNat]
  rw [if_neg (by omega), if_neg (by omega), if_pos ha', if_pos hb]

private theorem lead_three {a b c : UInt8} (r : Bytes) (ha : 0xE0 ≤ a.toNat)
    (ha' : a.toNat < 0xF0) (hb : isSecond a b = true) (hc : isTail c = true) :
    lead a (b :: c :: r) =
      (some (Char.ofNat (((a.toNat - 0xE0) * 64 + tailBits b) * 64 + tailBits c)), 2) := by
  simp only [lead, UInt8.lt_iff_toNat_lt, UInt8.reduceToNat]
  rw [if_neg (by omega), if_neg (by omega), if_neg (by omega), if_pos ha', if_pos hb, if_pos hc]

private theorem lead_four {a b c d : UInt8} (r : Bytes) (ha : 0xF0 ≤ a.toNat)
    (ha' : a.toNat < 0xF5) (hb : isSecond a b = true) (hc : isTail c = true)
    (hd : isTail d = true) :
    lead a (b :: c :: d :: r) =
      (some (Char.ofNat ((((a.toNat - 0xF0) * 64 + tailBits b) * 64 + tailBits c) * 64 +
        tailBits d)), 3) := by
  simp only [lead, UInt8.lt_iff_toNat_lt, UInt8.reduceToNat]
  rw [if_neg (by omega), if_neg (by omega), if_neg (by omega), if_neg (by omega), if_pos ha',
    if_pos hb, if_pos hc, if_pos hd]

/-- The spelling of a character is read back as a whole, whatever follows it. -/
theorem lead_encodeChar {c : Char} {a : UInt8} {s : Bytes} (r : Bytes)
    (h : utf8EncodeChar c = a :: s) : lead a (s ++ r) = (some c, s.length) := by
  have hv := toNat_lt c
  have hc : Char.ofNat c.toNat = c := Char.ofNat_toNat c
  have hn : c.val.toNat = c.toNat := rfl
  simp only [utf8EncodeChar, hn] at h
  generalize c.toNat = n at h hv hc
  split at h
  · obtain ⟨rfl, rfl⟩ := List.cons.inj h
    have ha : (UInt8.ofNat n).toNat = n := by rw [UInt8.toNat_ofNat']; omega
    refine (lead_one _ (by omega)).trans ?_
    rw [ha, hc]
    rfl
  split at h
  · obtain ⟨rfl, rfl⟩ := List.cons.inj h
    have ha : (UInt8.ofNat (n / 64 % 32 + 192)).toNat = n / 64 + 192 := by
      rw [UInt8.toNat_ofNat']; omega
    refine (lead_two _ (by omega) (by omega) (isTail_tail _)).trans ?_
    have he : (n / 64 + 192 - 192) * 64 + n % 64 = n := by omega
    rw [ha, tailBits_tail, he, hc]
    rfl
  split at h
  · obtain ⟨rfl, rfl⟩ := List.cons.inj h
    have ha : (UInt8.ofNat (n / 4096 % 16 + 224)).toNat = n / 4096 + 224 := by
      rw [UInt8.toNat_ofNat']; omega
    have hb : isSecond (UInt8.ofNat (n / 4096 % 16 + 224)) (UInt8.ofNat (n / 64 % 64 + 128)) := by
      rw [isSecond_iff, toNat_tail, ha]
      exact ⟨isTail_tail _, by omega⟩
    refine (lead_three _ (by omega) (by omega) hb (isTail_tail _)).trans ?_
    have he : ((n / 4096 + 224 - 224) * 64 + n / 64 % 64) * 64 + n % 64 = n := by omega
    rw [ha, tailBits_tail, tailBits_tail, he, hc]
    rfl
  · obtain ⟨rfl, rfl⟩ := List.cons.inj h
    have ha : (UInt8.ofNat (n / 262144 % 8 + 240)).toNat = n / 262144 + 240 := by
      rw [UInt8.toNat_ofNat']; omega
    have hb : isSecond (UInt8.ofNat (n / 262144 % 8 + 240))
        (UInt8.ofNat (n / 4096 % 64 + 128)) := by
      rw [isSecond_iff, toNat_tail, ha]
      exact ⟨isTail_tail _, by omega⟩
    refine (lead_four _ (by omega) (by omega) hb (isTail_tail _) (isTail_tail _)).trans ?_
    have he : (((n / 262144 + 240 - 240) * 64 + n / 4096 % 64) * 64 + n / 64 % 64) * 64 + n % 64
        = n := by omega
    rw [ha, tailBits_tail, tailBits_tail, tailBits_tail, he, hc]
    rfl

/-- What is read as a character is the spelling of that character. -/
theorem encodeChar_of_lead {a : UInt8} {s : Bytes} {c : Char} {n : Nat} :
    lead a s = (some c, n) → utf8EncodeChar c = a :: s.take n ∧ n ≤ s.length := by
  fun_cases lead a s with
  | case1 _ h1 =>
    intro h
    simp only [Prod.mk.injEq, Option.some.injEq] at h
    obtain ⟨rfl, rfl⟩ := h
    have ha : a.toNat < 128 := UInt8.lt_iff_toNat_lt.1 h1
    simp only [utf8EncodeChar]
    rw [val_ofNat (by omega), if_pos (by omega), UInt8.ofNat_toNat]
    simp
  | case3 h1 h2 h3 b r hb =>
    intro h
    simp only [Prod.mk.injEq, Option.some.injEq] at h
    obtain ⟨rfl, rfl⟩ := h
    simp only [UInt8.lt_iff_toNat_lt, UInt8.reduceToNat] at h1 h2 h3
    rw [isTail_iff] at hb
    simp only [utf8EncodeChar, tailBits_eq]
    rw [val_ofNat (by omega), if_neg (by omega), if_pos (by omega),
      ofNat_toNat_of_eq (b := a) (by omega), ofNat_toNat_of_eq (b := b) (by omega)]
    simp
  | case6 h1 h2 h3 h4 b c r hb hc =>
    intro h
    simp only [Prod.mk.injEq, Option.some.injEq] at h
    obtain ⟨rfl, rfl⟩ := h
    simp only [UInt8.lt_iff_toNat_lt, UInt8.reduceToNat] at h1 h2 h3 h4
    rw [isSecond_iff, isTail_iff] at hb
    rw [isTail_iff] at hc
    simp only [utf8EncodeChar, tailBits_eq]
    rw [val_ofNat (by omega), if_neg (by omega), if_neg (by omega), if_pos (by omega),
      ofNat_toNat_of_eq (b := a) (by omega), ofNat_toNat_of_eq (b := b) (by omega),
      ofNat_toNat_of_eq (b := c) (by omega)]
    simp
  | case11 h1 h2 h3 h4 h5 b c d r hb hc hd =>
    intro h
    simp only [Prod.mk.injEq, Option.some.injEq] at h
    obtain ⟨rfl, rfl⟩ := h
    simp only [UInt8.lt_iff_toNat_lt, UInt8.reduceToNat] at h1 h2 h3 h4 h5
    rw [isSecond_iff, isTail_iff] at hb
    rw [isTail_iff] at hc hd
    simp only [utf8EncodeChar, tailBits_eq]
    rw [val_ofNat (by omega), if_neg (by omega), if_neg (by omega), if_neg (by omega),
      ofNat_toNat_of_eq (b := a) (by omega), ofNat_toNat_of_eq (b := b) (by omega),
      ofNat_toNat_of_eq (b := c) (by omega), ofNat_toNat_of_eq (b := d) (by omega)]
    simp
  | _ =>
    intro h
    simp at h

/-! ## Whole texts -/

@[simp] theorem decode_encode (s : Text) : decode (encode s) = some s := by
  induction s with
  | nil => simp [decode]
  | cons c s ih =>
    obtain ⟨a, r, hc⟩ := List.exists_cons_of_ne_nil (String.utf8EncodeChar_ne_nil (c := c))
    rw [encode_cons, hc, List.cons_append, decode, lead_encodeChar (encode s) hc]
    simp [ih]

theorem encode_of_decode {b : Bytes} {s : Text} (h : decode b = some s) : encode s = b := by
  fun_induction decode b generalizing s with
  | case1 => cases h; rfl
  | case2 a b c n hl ih =>
    obtain ⟨t, ht, rfl⟩ := Option.map_eq_some_iff.1 h
    obtain ⟨hc, hn⟩ := encodeChar_of_lead hl
    rw [encode_cons, hc, ih ht, List.cons_append, List.take_append_drop]
  | case3 => cases h

theorem decode_eq_some_iff {b : Bytes} {s : Text} : decode b = some s ↔ b = encode s :=
  ⟨fun h => (encode_of_decode h).symm, fun h => h ▸ decode_encode s⟩

@[simp] theorem encode_inj {s t : Text} : encode s = encode t ↔ s = t := by
  constructor
  · intro h
    have hdecode := congrArg decode h
    rw [decode_encode, decode_encode] at hdecode
    exact Option.some.inj hdecode
  · exact congrArg encode

@[simp] theorem encode_eq_nil_iff {s : Text} : encode s = [] ↔ s = [] :=
  encode_inj (t := [])

/-! ## ASCII -/

theorem encodeChar_ascii {c : Char} (h : c.toNat < 0x80) :
    utf8EncodeChar c = [UInt8.ofNat c.toNat] :=
  if_pos (Nat.le_of_lt_succ h)

/-- All bytes of a longer spelling have their highest bit set. -/
theorem toNat_eq_of_mem_encodeChar {b : UInt8} {c : Char} (h : b ∈ utf8EncodeChar c)
    (hb : b.toNat < 0x80) : c.toNat = b.toNat := by
  have hn : c.val.toNat = c.toNat := rfl
  have hv := toNat_lt c
  simp only [utf8EncodeChar, hn] at h
  generalize c.toNat = n at h hv ⊢
  by_cases hle : n ≤ 127
  · rw [if_pos hle, List.mem_singleton] at h
    rw [h, UInt8.toNat_ofNat']
    omega
  · rw [if_neg hle] at h
    repeat' split at h
    all_goals
      simp only [List.mem_cons, List.not_mem_nil, or_false, ← UInt8.toNat_inj,
        UInt8.toNat_ofNat'] at h
      omega

theorem mem_encode_iff {c : Char} (hc : c.toNat < 0x80) {s : Text} :
    UInt8.ofNat c.toNat ∈ encode s ↔ c ∈ s := by
  have hb : (UInt8.ofNat c.toNat).toNat = c.toNat := by rw [UInt8.toNat_ofNat']; omega
  simp only [encode, List.mem_flatMap]
  constructor
  · rintro ⟨d, hd, hm⟩
    have := toNat_eq_of_mem_encodeChar hm (by omega)
    rw [hb] at this
    exact Char.toNat_inj.1 this ▸ hd
  · intro h
    exact ⟨c, h, by simp [encodeChar_ascii hc]⟩

theorem lineFeed_mem_encode {s : Text} : lineFeed ∈ encode s ↔ '\n' ∈ s :=
  mem_encode_iff (c := '\n') (by decide)

/-- An ASCII byte at the end is read as its character, after what stands before it. -/
theorem decode_append_ascii {c : Char} (hc : c.toNat < 0x80) (b : Bytes) :
    decode (b ++ [UInt8.ofNat c.toNat]) = (decode b).map (· ++ [c]) := by
  ext s
  rw [decode_eq_some_iff, Option.map_eq_some_iff]
  have hchar : encode [c] = [UInt8.ofNat c.toNat] := by simp [encodeChar_ascii hc]
  constructor
  · intro h
    rcases List.eq_nil_or_concat s with rfl | ⟨t, d, rfl⟩
    · simp at h
    · -- The last byte belongs to the last character, which is therefore `c`.
      have hd : d = c := by
        have hlast : UInt8.ofNat c.toNat ∈ utf8EncodeChar d := by
          obtain ⟨r, y, hr⟩ := (List.eq_nil_or_concat _).resolve_left
            (String.utf8EncodeChar_ne_nil (c := d))
          simp only [List.concat_eq_append, encode_append, encode_cons, encode_nil,
            List.append_nil, hr, ← List.append_assoc] at h
          have hy : UInt8.ofNat c.toNat = y := List.singleton_inj.1 (List.append_inj' h rfl).2
          simp [hr, hy]
        have hb : (UInt8.ofNat c.toNat).toNat = c.toNat := by rw [UInt8.toNat_ofNat']; omega
        have := toNat_eq_of_mem_encodeChar hlast (by omega)
        rw [hb] at this
        exact Char.toNat_inj.1 this
      subst hd
      rw [List.concat_eq_append, encode_append, hchar] at h
      exact ⟨t, decode_eq_some_iff.2 (List.append_cancel_right h), by simp⟩
  · rintro ⟨t, ht, rfl⟩
    rw [encode_append, hchar, encode_of_decode ht]

/-! ## Order -/

private theorem ofNat_cons_lt {m n : Nat} {s t : Bytes} (h : m % 256 ≤ n % 256)
    (hs : m % 256 = n % 256 → s < t) : UInt8.ofNat m :: s < UInt8.ofNat n :: t := by
  have hm := UInt8.toNat_ofNat' (n := m)
  have hn := UInt8.toNat_ofNat' (n := n)
  rcases Nat.lt_or_eq_of_le h with h | h
  · exact List.Lex.rel (UInt8.lt_iff_toNat_lt.2 (by omega))
  · rw [UInt8.toNat_inj.1 (hm.trans (h.trans hn.symm))]
    exact List.Lex.cons (hs h)

private theorem append_lt_append (l : Bytes) {s t : Bytes} (h : s < t) : l ++ s < l ++ t := by
  induction l with
  | nil => exact h
  | cons a l ih => exact List.Lex.cons ih

/-- The spellings of two characters differ before either of them ends. -/
theorem encodeChar_append_lt {c d : Char} (h : c < d) (s t : Bytes) :
    utf8EncodeChar c ++ s < utf8EncodeChar d ++ t := by
  have hn : c.val.toNat = c.toNat := rfl
  have hm : d.val.toNat = d.toNat := rfl
  have hlt : c.toNat < d.toNat := h
  have hd := toNat_lt d
  simp only [utf8EncodeChar, hn, hm]
  generalize c.toNat = n at hlt ⊢
  generalize d.toNat = m at hlt hd ⊢
  -- A longer spelling has a greater first byte; of two equally long ones, the
  -- greater has the greater byte where they first differ.
  split
  · split
    · exact ofNat_cons_lt (by omega) (by omega)
    split
    · exact ofNat_cons_lt (by omega) (by omega)
    split
    · exact ofNat_cons_lt (by omega) (by omega)
    · exact ofNat_cons_lt (by omega) (by omega)
  rw [if_neg (by omega : ¬m ≤ 127)]
  split
  · split
    · refine ofNat_cons_lt (by omega) fun _ => ?_
      exact ofNat_cons_lt (by omega) (by omega)
    split
    · exact ofNat_cons_lt (by omega) (by omega)
    · exact ofNat_cons_lt (by omega) (by omega)
  rw [if_neg (by omega : ¬m ≤ 2047)]
  split
  · split
    · refine ofNat_cons_lt (by omega) fun _ => ?_
      refine ofNat_cons_lt (by omega) fun _ => ?_
      exact ofNat_cons_lt (by omega) (by omega)
    · exact ofNat_cons_lt (by omega) (by omega)
  rw [if_neg (by omega : ¬m ≤ 65535)]
  refine ofNat_cons_lt (by omega) fun _ => ?_
  refine ofNat_cons_lt (by omega) fun _ => ?_
  refine ofNat_cons_lt (by omega) fun _ => ?_
  exact ofNat_cons_lt (by omega) (by omega)

theorem encode_lt_encode {s t : Text} (h : s < t) : encode s < encode t := by
  induction h with
  | nil =>
    rename_i d t
    obtain ⟨a, r, hd⟩ := List.exists_cons_of_ne_nil (String.utf8EncodeChar_ne_nil (c := d))
    rw [encode_cons, hd]
    exact List.Lex.nil
  | rel h => exact encodeChar_append_lt h _ _
  | cons h ih => exact append_lt_append _ ih

/-- The order of bytes is the order of characters. -/
theorem encode_lt_encode_iff {s t : Text} : encode s < encode t ↔ s < t := by
  refine ⟨fun h => ?_, encode_lt_encode⟩
  rcases Std.lt_trichotomy s t with hst | rfl | hts
  · exact hst
  · exact absurd h Std.lt_irrefl
  · exact absurd (Std.lt_trans h (encode_lt_encode hts)) Std.lt_irrefl

end StoreLog.Utf8
