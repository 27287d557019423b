-- SUMMARY: Readers of strings take the strings of the grammar, escape by escape.
import StoreLog.Proofs.Json.Taken

/-!
# Reading strings

A reader of strings takes exactly the strings of the grammar off the front of a text. A
string ends with its closing quote, whatever follows it.
-/

namespace StoreLog.Json

/-! ## Digits in base sixteen -/

theorem toNat_le_of_le {c d : Char} (h : c ≤ d) : c.toNat ≤ d.toNat :=
  UInt32.le_iff_toNat_le.1 h

theorem not_between_of_lt {a b c d : Char} (h : d ≤ c) (hlt : b.toNat < d.toNat) :
    ¬(a ≤ c ∧ c ≤ b) := by
  rintro ⟨-, hb⟩
  exact absurd (Nat.le_trans (toNat_le_of_le h) (toNat_le_of_le hb)) (Nat.not_le.2 hlt)

/-- The value of a letter, counted from ten on. -/
theorem toNat_sub_eq {c d : Char} (h : d ≤ c) (hd : 10 ≤ d.toNat) :
    c.toNat - (d.toNat - 10) = 10 + (c.toNat - d.toNat) := by
  have := toNat_le_of_le h
  omega

theorem IsHexDigit.lt {c : Char} {i : Nat} (h : IsHexDigit c i) : i < 16 := by
  cases h with
  | digit h | lower h | upper h =>
    have := toNat_le_of_le h.2
    simp only [Char.reduceToNat] at this ⊢
    omega

theorem isDigit_iff {c : Char} : c.isDigit = true ↔ '0' ≤ c ∧ c ≤ '9' := by
  simp only [Char.isDigit, Bool.and_eq_true, decide_eq_true_eq]
  exact Iff.rfl

theorem hexValue?_eq_some_iff {c : Char} {i : Nat} :
    Text.hexValue? c = some i ↔ IsHexDigit c i := by
  have hlower (h : 'a' ≤ c) : c.toNat - 87 = 10 + (c.toNat - 'a'.toNat) :=
    toNat_sub_eq h (by decide)
  have hupper (h : 'A' ≤ c) : c.toNat - 55 = 10 + (c.toNat - 'A'.toNat) :=
    toNat_sub_eq h (by decide)
  simp only [Text.hexValue?, isDigit_iff]
  constructor
  · intro h
    split at h
    · next hc =>
      cases h
      exact .digit hc
    split at h
    · next hc =>
      rw [hlower hc.1] at h
      cases h
      exact .lower hc
    split at h
    · next hc =>
      rw [hupper hc.1] at h
      cases h
      exact .upper hc
    · cases h
  · intro h
    cases h with
    | digit h => exact if_pos h
    | lower h => rw [if_neg (not_between_of_lt h.1 (by decide)), if_pos h, hlower h.1]
    | upper h =>
      have hcase : ¬('a' ≤ c ∧ c ≤ 'f') := fun h' => not_between_of_lt h'.1 (by decide) h
      rw [if_neg (not_between_of_lt h.1 (by decide)), if_neg hcase, if_pos h, hupper h.1]

theorem isDigitOf_sixteen_iff {c : Char} : Text.isDigitOf 16 c = true ↔ ∃ i, IsHexDigit c i := by
  simp only [Text.isDigitOf, Option.any_eq_true, decide_eq_true_eq, hexValue?_eq_some_iff]
  exact ⟨fun ⟨i, h, _⟩ => ⟨i, h⟩, fun ⟨i, h⟩ => ⟨i, h, h.lt⟩⟩

theorem valueOf_of_isHexDigit {a b c d : Char} {i j k l : Nat} (ha : IsHexDigit a i)
    (hb : IsHexDigit b j) (hc : IsHexDigit c k) (hd : IsHexDigit d l) :
    Text.valueOf 16 [a, b, c, d] = 16 * (16 * (16 * i + j) + k) + l := by
  simp [Text.valueOf, hexValue?_eq_some_iff.2 ha, hexValue?_eq_some_iff.2 hb,
    hexValue?_eq_some_iff.2 hc, hexValue?_eq_some_iff.2 hd]

theorem hexNumber?_eq_some_iff {a b c d : Char} {n : Nat} :
    hexNumber? [a, b, c, d] = some n ↔ IsUnit [a, b, c, d] n := by
  have hall : [a, b, c, d].all (Text.isDigitOf 16) = true ↔
      (∃ i, IsHexDigit a i) ∧ (∃ j, IsHexDigit b j) ∧ (∃ k, IsHexDigit c k) ∧
        ∃ l, IsHexDigit d l := by
    simp only [List.all_cons, List.all_nil, Bool.and_true, Bool.and_eq_true,
      isDigitOf_sixteen_iff]
  constructor
  · intro h
    unfold hexNumber? at h
    split at h
    · next hdigits =>
      obtain ⟨⟨i, ha⟩, ⟨j, hb⟩, ⟨k, hc⟩, ⟨l, hd⟩⟩ := hall.1 hdigits
      rw [valueOf_of_isHexDigit ha hb hc hd] at h
      cases h
      exact .mk ha hb hc hd
    · cases h
  · rintro ⟨ha, hb, hc, hd⟩
    rw [hexNumber?, if_pos (hall.2 ⟨⟨_, ha⟩, ⟨_, hb⟩, ⟨_, hc⟩, ⟨_, hd⟩⟩),
      valueOf_of_isHexDigit ha hb hc hd]

/-! ## Escapes -/

theorem taken?_readUnit_iff {s r : Text} {n : Nat} :
    taken? (readUnit s) = some (n, r) ↔ ∃ u, IsUnit u n ∧ s = u ++ r := by
  constructor
  · intro h
    unfold readUnit at h
    split at h
    · next a b c d r' =>
      split at h
      · next m hm =>
        cases h
        exact ⟨_, hexNumber?_eq_some_iff.1 hm, rfl⟩
      · cases h
    · split at h
      · cases h
      · cases h
  · rintro ⟨_, hu, rfl⟩
    cases hu with
    | mk ha hb hc hd => simp [readUnit, hexNumber?_eq_some_iff.2 (.mk ha hb hc hd)]

theorem isLowSurrogate_iff {n : Nat} : isLowSurrogate n = true ↔ 0xDC00 ≤ n ∧ n ≤ 0xDFFF := by
  simp only [isLowSurrogate, Bool.and_eq_true, decide_eq_true_eq]

theorem isHighSurrogate_iff {n : Nat} : isHighSurrogate n = true ↔ 0xD800 ≤ n ∧ n ≤ 0xDBFF := by
  simp only [isHighSurrogate, Bool.and_eq_true, decide_eq_true_eq]

theorem charOfPair_eq (high low : Nat) :
    Char.ofNat (0x10000 + (high - 0xD800) * 0x400 + (low - 0xDC00)) = charOfPair high low := by
  unfold charOfPair
  rfl

theorem taken?_readSecondUnit (high : Nat) (s : Text) :
    taken? (readSecondUnit high ('\\' :: 'u' :: s)) =
      (taken? (readUnit s)).bind fun p =>
        if isLowSurrogate p.1 then some (charOfPair high p.1, p.2) else none := by
  rw [readSecondUnit]
  simp only [charOfPair_eq]
  cases readUnit s with
  | error e => rfl
  | ok t =>
    simp only [taken?_ok, Option.bind_some]
    split
    · rfl
    · rfl

theorem exists_of_taken?_readSecondUnit {high : Nat} {s : Text} {p : Char × Text}
    (h : taken? (readSecondUnit high s) = some p) : ∃ r, s = '\\' :: 'u' :: r := by
  unfold readSecondUnit at h
  split at h
  · exact ⟨_, rfl⟩
  all_goals cases h

theorem taken?_readSecondUnit_iff {high : Nat} {s r : Text} {c : Char} :
    taken? (readSecondUnit high s) = some (c, r) ↔
      ∃ u low, IsUnit u low ∧ (0xDC00 ≤ low ∧ low ≤ 0xDFFF) ∧ c = charOfPair high low ∧
        s = '\\' :: 'u' :: (u ++ r) := by
  constructor
  · intro h
    obtain ⟨s, rfl⟩ := exists_of_taken?_readSecondUnit h
    rw [taken?_readSecondUnit, Option.bind_eq_some_iff] at h
    obtain ⟨⟨low, r'⟩, hunit, h⟩ := h
    obtain ⟨u, hu, rfl⟩ := taken?_readUnit_iff.1 hunit
    split at h
    · next hlow =>
      cases h
      exact ⟨u, low, hu, isLowSurrogate_iff.1 hlow, rfl, rfl⟩
    · cases h
  · rintro ⟨u, low, hu, hlow, rfl, rfl⟩
    have hunit : taken? (readUnit (u ++ r)) = some (low, r) := taken?_readUnit_iff.2 ⟨u, hu, rfl⟩
    rw [taken?_readSecondUnit, hunit]
    exact if_pos (isLowSurrogate_iff.2 hlow)

theorem taken?_readEscape_unit (s : Text) :
    taken? (readEscape ('u' :: s)) =
      (taken? (readUnit s)).bind fun p =>
        if isLowSurrogate p.1 then none
        else if isHighSurrogate p.1 then taken? (readSecondUnit p.1 p.2)
        else some (Char.ofNat p.1, p.2) := by
  rw [readEscape, if_pos rfl]
  cases readUnit s with
  | error e => rfl
  | ok t =>
    simp only [taken?_ok, Option.bind_some]
    split
    · rfl
    · split
      · exact taken?_within _ _
      · rfl

theorem taken?_readEscape_simple {c : Char} (hc : c ≠ 'u') (s : Text) :
    taken? (readEscape (c :: s)) = (simpleEscape c).map (·, s) := by
  rw [readEscape, if_neg hc]
  cases simpleEscape c with
  | none => rfl
  | some d => rfl

theorem simpleEscape_eq_some_iff {c d : Char} : simpleEscape c = some d ↔ IsShort c d := by
  constructor
  · intro h
    unfold simpleEscape at h
    split at h
    · next hc =>
      cases h
      obtain rfl | rfl | rfl := hc
      · exact .quote
      · exact .backslash
      · exact .slash
    repeat
      split at h
      · next hc =>
        subst hc
        cases h
        constructor
    cases h
  · intro h
    cases h <;> rfl

theorem IsShort.ne_u {c d : Char} (h : IsShort c d) : c ≠ 'u' := by
  cases h <;> decide

theorem isEscape_of_taken? {s r : Text} {c : Char} (h : taken? (readEscape s) = some (c, r)) :
    ∃ e, IsEscape e c ∧ s = e ++ r := by
  cases s with
  | nil => cases h
  | cons d s =>
    by_cases hu : d = 'u'
    · subst hu
      rw [taken?_readEscape_unit, Option.bind_eq_some_iff] at h
      obtain ⟨⟨n, r'⟩, hunit, h⟩ := h
      obtain ⟨u, hu, rfl⟩ := taken?_readUnit_iff.1 hunit
      split at h
      · cases h
      · next hlow =>
        split at h
        · next hhigh =>
          obtain ⟨u', low, hu', hlow', rfl, rfl⟩ := taken?_readSecondUnit_iff.1 h
          exact ⟨_, .pair hu hu' (isHighSurrogate_iff.1 hhigh) hlow', by simp⟩
        · next hhigh =>
          cases h
          rw [isLowSurrogate_iff] at hlow
          rw [isHighSurrogate_iff] at hhigh
          exact ⟨_, .unit hu (by omega), rfl⟩
    · rw [taken?_readEscape_simple hu, Option.map_eq_some_iff] at h
      obtain ⟨d', hd, h⟩ := h
      cases h
      exact ⟨_, .short (simpleEscape_eq_some_iff.1 hd), rfl⟩

theorem taken?_readEscape_iff {s r : Text} {c : Char} :
    taken? (readEscape s) = some (c, r) ↔ ∃ e, IsEscape e c ∧ s = e ++ r := by
  constructor
  · exact isEscape_of_taken?
  · rintro ⟨e, he, rfl⟩
    cases he with
    | short h =>
      rw [List.singleton_append, taken?_readEscape_simple h.ne_u, simpleEscape_eq_some_iff.2 h]
      rfl
    | @unit u n hu hn =>
      have hl : ¬isLowSurrogate n = true := by
        rw [isLowSurrogate_iff]
        omega
      have hh : ¬isHighSurrogate n = true := by
        rw [isHighSurrogate_iff]
        omega
      have hunit : taken? (readUnit (u ++ r)) = some (n, r) := taken?_readUnit_iff.2 ⟨u, hu, rfl⟩
      rw [List.cons_append, taken?_readEscape_unit, hunit]
      simp [hl, hh]
    | @pair u v high low hu hv hh hl =>
      have hunit : taken? (readUnit (u ++ '\\' :: 'u' :: (v ++ r))) =
          some (high, '\\' :: 'u' :: (v ++ r)) :=
        taken?_readUnit_iff.2 ⟨u, hu, rfl⟩
      have hsecond : taken? (readSecondUnit high ('\\' :: 'u' :: (v ++ r))) =
          some (charOfPair high low, r) :=
        taken?_readSecondUnit_iff.2 ⟨v, low, hv, hl, rfl, rfl⟩
      have hnot : ¬isLowSurrogate high = true := by
        rw [isLowSurrogate_iff]
        omega
      rw [List.cons_append, List.append_assoc, List.cons_append, List.cons_append,
        taken?_readEscape_unit, hunit]
      simp [hnot, isHighSurrogate_iff.2 hh, hsecond]

/-! ## Strings -/

theorem taken?_readQuoted_escape (r : Text) :
    taken? (readQuoted ('\\' :: r)) =
      (taken? (readEscape r)).bind fun p =>
        (taken? (readQuoted p.2)).map (Prod.map (p.1 :: ·) id) := by
  rw [readQuoted, if_neg (by decide), if_pos rfl]
  cases readEscape r with
  | error e => rfl
  | ok t => exact taken?_map _ _ (fun _ => rfl) (fun _ => rfl)

theorem taken?_readQuoted_plain {c : Char} (hq : c ≠ '"') (hb : c ≠ '\\') (r : Text) :
    taken? (readQuoted (c :: r)) =
      if c.toNat < 0x20 then none else (taken? (readQuoted r)).map (Prod.map (c :: ·) id) := by
  rw [readQuoted, if_neg hq, if_neg hb]
  split
  · rfl
  · exact taken?_map _ _ (fun _ => rfl) (fun _ => rfl)

/-- What is taken for a string, its opening quote apart, is the content of a string and the
closing quote. -/
theorem isContent_of_taken? {s t r : Text} (h : taken? (readQuoted s) = some (t, r)) :
    ∃ b, IsContent b t ∧ s = b ++ '"' :: r := by
  -- An escape takes several characters, so the induction is on the length of the text.
  induction hn : s.length using Nat.strongRecOn generalizing s t with
  | _ n ih =>
    cases s with
    | nil =>
      rw [readQuoted] at h
      cases h
    | cons c s =>
      subst hn
      by_cases hq : c = '"'
      · subst hq
        rw [readQuoted, if_pos rfl] at h
        cases h
        exact ⟨[], .nil, rfl⟩
      by_cases hb : c = '\\'
      · subst hb
        rw [taken?_readQuoted_escape, Option.bind_eq_some_iff] at h
        obtain ⟨⟨d, s'⟩, hescape, h⟩ := h
        obtain ⟨e, he, rfl⟩ := taken?_readEscape_iff.1 hescape
        obtain ⟨t', hrest, rfl⟩ := map_value_eq_some_iff.1 h
        have hshorter : s'.length < ('\\' :: (e ++ s')).length := by
          simp only [List.length_cons, List.length_append]
          omega
        obtain ⟨b, hcontent, rfl⟩ := ih _ hshorter hrest rfl
        exact ⟨'\\' :: (e ++ b), .escape he hcontent, by simp⟩
      · rw [taken?_readQuoted_plain hq hb] at h
        split at h
        · cases h
        · next hc =>
          obtain ⟨t', hrest, rfl⟩ := map_value_eq_some_iff.1 h
          obtain ⟨b, hcontent, rfl⟩ := ih _ (Nat.lt_succ_self _) hrest rfl
          exact ⟨c :: b, .plain hq hb (Nat.le_of_not_lt hc) hcontent, rfl⟩

theorem taken?_readQuoted_of_isContent {b t : Text} (h : IsContent b t) (r : Text) :
    taken? (readQuoted (b ++ '"' :: r)) = some (t, r) := by
  induction h with
  | nil =>
    rw [List.nil_append, readQuoted, if_pos rfl]
    rfl
  | plain hq hb hc _ ih =>
    rw [List.cons_append, taken?_readQuoted_plain hq hb, if_neg (Nat.not_lt.2 hc), ih]
    rfl
  | @escape e s t c he _ ih =>
    have hescape : taken? (readEscape (e ++ (s ++ '"' :: r))) = some (c, s ++ '"' :: r) :=
      taken?_readEscape_iff.2 ⟨e, he, rfl⟩
    rw [List.cons_append, List.append_assoc, taken?_readQuoted_escape, hescape, Option.bind_some,
      ih]
    rfl

theorem taken?_readQuoted_iff {s t r : Text} :
    taken? (readQuoted s) = some (t, r) ↔ ∃ b, IsContent b t ∧ s = b ++ '"' :: r := by
  constructor
  · exact isContent_of_taken?
  · rintro ⟨b, hb, rfl⟩
    exact taken?_readQuoted_of_isContent hb r

end StoreLog.Json
