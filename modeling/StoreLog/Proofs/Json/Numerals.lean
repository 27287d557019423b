-- SUMMARY: Readers of numbers take the numerals of the grammar.
import StoreLog.Proofs.Json.Taken

/-!
# Reading numbers

A reader of numbers takes as many characters as it can, so it takes the numerals of the
grammar where what follows cannot go on with a numeral. A numeral that denotes no number,
because that would be out of range, is refused.
-/

namespace StoreLog.Json

/-- Characters that may go on with a numeral after its first digit. -/
def isNumeric (c : Char) : Bool :=
  c.isDigit || c == '.' || c == 'e' || c == 'E'

theorem isNumeric_of_isEnd {c : Char} (h : isEnd c = true) : isNumeric c = false := by
  simp only [isEnd, isBlank, Bool.or_eq_true, beq_iff_eq] at h
  obtain ((((((rfl | rfl) | rfl) | rfl) | rfl) | rfl) | rfl) := h
  all_goals rfl

theorem Ends.stops_isNumeric {s : Text} (h : Ends s) : Stops isNumeric s := by
  intro c hc
  have hend := h c hc
  rw [Bool.not_eq_false'] at hend
  exact isNumeric_of_isEnd hend

namespace Numeral

section

variable {d r s w f e : Text} {x : Option (Bool × Text)} {c : Char}

/-! ## Digits -/

theorem takeWhile_digits (hd : ∀ c ∈ d, c.isDigit = true) (hr : Stops Char.isDigit r) :
    (d ++ r).takeWhile Char.isDigit = d := by
  rw [List.takeWhile_append_of_pos hd]
  cases r with
  | nil => simp
  | cons c r => simp [stops_cons.1 hr]

theorem dropWhile_digits (hd : ∀ c ∈ d, c.isDigit = true) (hr : Stops Char.isDigit r) :
    (d ++ r).dropWhile Char.isDigit = r := by
  rw [List.dropWhile_append_of_pos hd]
  cases r with
  | nil => rfl
  | cons c r => simp [stops_cons.1 hr]

theorem digits_cons_takeWhile (hc : c.isDigit = true) (s : Text) :
    Digits (c :: s.takeWhile Char.isDigit) := by
  refine ⟨List.cons_ne_nil _ _, ?_⟩
  intro a ha
  cases List.mem_cons.1 ha with
  | inl h => exact h ▸ hc
  | inr h => exact List.all_eq_true.1 List.all_takeWhile a h

/-- The digits that are taken, if there is one at the front. -/
theorem digits_takeWhile (h : s.head?.any Char.isDigit = true) :
    Digits (s.takeWhile Char.isDigit) := by
  cases s with
  | nil => cases h
  | cons c s =>
    have hc : c.isDigit = true := h
    rw [List.takeWhile_cons_of_pos hc]
    exact digits_cons_takeWhile hc s

theorem any_head?_of_digits (hd : Digits d) (r : Text) :
    (d ++ r).head?.any Char.isDigit = true := by
  obtain ⟨hne, hall⟩ := hd
  cases d with
  | nil => exact absurd rfl hne
  | cons c d => exact hall c (List.mem_cons_self ..)

theorem any_head?_of_stops (h : Stops Char.isDigit s) : s.head?.any Char.isDigit = false := by
  cases s with
  | nil => rfl
  | cons c s => exact stops_cons.1 h

/-! ## The whole part -/

theorem isWhole_of_taken? (h : taken? (readWhole s) = some (w, r)) : IsWhole w ∧ s = w ++ r := by
  unfold readWhole at h
  split at h
  · cases h
  · next c s =>
    split at h
    · next hc =>
      split at h
      · cases h
      · cases h
        subst hc
        exact ⟨.zero, rfl⟩
    · next hc =>
      split at h
      · next hdigit =>
        cases h
        exact ⟨.digits hc (digits_cons_takeWhile hdigit s), by simp⟩
      · cases h

theorem taken?_readWhole (hw : IsWhole w) (hr : Stops Char.isDigit r) :
    taken? (readWhole (w ++ r)) = some (w, r) := by
  cases hw with
  | zero =>
    rw [List.singleton_append, readWhole, if_pos rfl, any_head?_of_stops hr]
    rfl
  | @digits c s hc hs =>
    have hdigit : c.isDigit = true := hs.2 c (List.mem_cons_self ..)
    have hall : ∀ a ∈ s, a.isDigit = true := fun a ha => hs.2 a (List.mem_cons_of_mem _ ha)
    rw [List.cons_append, readWhole, if_neg hc, if_pos hdigit]
    simp only [takeWhile_digits hall hr, dropWhile_digits hall hr, taken?_ok]

/-! ## The fraction -/

theorem isFraction_of_kept? (h : kept? (readFraction s) = some (d, r)) :
    ∃ f, IsFraction f d ∧ s = f ++ r := by
  unfold readFraction at h
  split at h
  · next s =>
    split at h
    · next hdigit =>
      cases h
      exact ⟨_, .present (digits_takeWhile hdigit), by simp⟩
    · split at h
      · cases h
      · cases h
  · cases h
    exact ⟨[], .absent, rfl⟩

/-- Characters that may go on with a numeral after its whole part or in its fraction. -/
def isFractional (c : Char) : Bool :=
  c.isDigit || c == '.'

theorem kept?_readFraction (hf : IsFraction f d) (hr : Stops isFractional r) :
    kept? (readFraction (f ++ r)) = some (d, r) := by
  cases hf with
  | absent =>
    rw [List.nil_append]
    unfold readFraction
    split
    · next s =>
      have hpoint : isFractional '.' = false := stops_cons.1 hr
      cases hpoint
    · rfl
  | present hd =>
    have hdigit : Stops Char.isDigit r := hr.mono fun c hc => by simp [isFractional, hc]
    rw [List.cons_append, readFraction, if_pos (any_head?_of_digits hd r)]
    simp only [kept?, takeWhile_digits hd.2 hdigit, dropWhile_digits hd.2 hdigit]

/-! ## The exponent -/

theorem isSign_readSign (s : Text) :
    ∃ t, IsSign t (readSign s).1.1 ∧ s = t ++ (readSign s).1.2 := by
  unfold readSign
  split
  · exact ⟨_, .plus, rfl⟩
  · exact ⟨_, .minus, rfl⟩
  · exact ⟨_, .absent, rfl⟩

theorem readSign_append {t : Text} {minus : Bool} (ht : IsSign t minus)
    (hr : r.head?.any Char.isDigit = true) : (readSign (t ++ r)).1 = (minus, r) := by
  cases ht with
  | plus => rfl
  | minus => rfl
  | absent =>
    rw [List.nil_append]
    unfold readSign
    split
    · cases hr
    · cases hr
    · rfl

theorem isExponent_of_kept? (h : kept? (readExponent s) = some (x, r)) :
    ∃ e, IsExponent e x ∧ s = e ++ r := by
  unfold readExponent at h
  split at h
  · cases h
    exact ⟨[], .absent, rfl⟩
  · next c s =>
    split at h
    · next hc =>
      obtain ⟨t, ht, hs⟩ := isSign_readSign s
      dsimp only at h
      split at h
      · next hdigit =>
        cases h
        refine ⟨_, .present hc ht (digits_takeWhile hdigit), ?_⟩
        rw [List.cons_append, List.append_assoc, List.takeWhile_append_dropWhile, ← hs]
      · split at h
        · cases h
        · cases h
    · cases h
      exact ⟨[], .absent, rfl⟩

theorem kept?_readExponent (he : IsExponent e x) (hr : Stops isNumeric r) :
    kept? (readExponent (e ++ r)) = some (x, r) := by
  cases he with
  | absent =>
    rw [List.nil_append]
    cases r with
    | nil => rfl
    | cons c r =>
      have hc : isNumeric c = false := stops_cons.1 hr
      have hne : ¬(c = 'e' ∨ c = 'E') := by
        rintro (rfl | rfl)
        · cases hc
        · cases hc
      rw [readExponent, if_neg hne]
      rfl
  | @present c t u minus hc ht hu =>
    have hsign : (readSign (t ++ (u ++ r))).1 = (minus, u ++ r) :=
      readSign_append ht (any_head?_of_digits hu r)
    have hdigit : Stops Char.isDigit r := hr.mono fun c hc => by simp [isNumeric, hc]
    rw [List.cons_append, List.append_assoc, readExponent, if_pos hc]
    simp only [hsign, if_pos (any_head?_of_digits hu r)]
    simp only [kept?, takeWhile_digits hu.2 hdigit, dropWhile_digits hu.2 hdigit]

/-! ## Numerals -/

theorem taken?_readUnsigned (negative : Bool) (s : Text) :
    taken? (readUnsigned negative s) =
      (taken? (readWhole s)).bind fun p =>
        (kept? (readFraction p.2)).bind fun q =>
          (kept? (readExponent q.2)).map (Prod.map (⟨negative, p.1, q.1, ·⟩) id) := by
  rw [readUnsigned]
  cases readWhole s with
  | error e => rfl
  | ok t =>
    rw [taken?_ok, Option.bind_some]
    dsimp only
    cases readFraction t.rest with
    | error e => rfl
    | ok u =>
      rw [kept?, Option.bind_some]
      dsimp only
      cases readExponent u.1.2 with
      | error e => rfl
      | ok v => rfl

theorem isUnsigned_of_taken? {negative : Bool} {n : Numeral}
    (h : taken? (readUnsigned negative s) = some (n, r)) :
    ∃ b, IsUnsigned negative b n ∧ s = b ++ r := by
  simp only [taken?_readUnsigned, Option.bind_eq_some_iff, map_value_eq_some_iff, Prod.exists] at h
  obtain ⟨w, _, hwhole, d, _, hfraction, x, hexponent, rfl⟩ := h
  obtain ⟨hw, rfl⟩ := isWhole_of_taken? hwhole
  obtain ⟨f, hf, rfl⟩ := isFraction_of_kept? hfraction
  obtain ⟨e, he, rfl⟩ := isExponent_of_kept? hexponent
  exact ⟨w ++ (f ++ e), .mk hw hf he, by simp⟩

/-- What begins with an exponent, or with what may follow a numeral, is no fraction. -/
theorem stops_isFractional (he : IsExponent e x) (hr : Stops isNumeric r) :
    Stops isFractional (e ++ r) := by
  cases he with
  | absent =>
    refine hr.mono fun c hc => ?_
    rw [isFractional, Bool.or_eq_true] at hc
    simp only [isNumeric, Bool.or_eq_true]
    exact .inl (.inl hc)
  | present hc _ _ =>
    refine stops_cons.2 ?_
    obtain (rfl | rfl) := hc
    · rfl
    · rfl

theorem stops_isDigit (hf : IsFraction f d) (hr : Stops isFractional r) :
    Stops Char.isDigit (f ++ r) := by
  cases hf with
  | absent => exact hr.mono fun c hc => by simp [isFractional, hc]
  | present _ => exact stops_cons.2 (by decide)

theorem taken?_readUnsigned_append {negative : Bool} {n : Numeral} (hn : IsUnsigned negative s n)
    (hr : Stops isNumeric r) : taken? (readUnsigned negative (s ++ r)) = some (n, r) := by
  obtain @⟨w, f, e, d, x, hw, hf, he⟩ := hn
  have hfractional : Stops isFractional (e ++ r) := stops_isFractional he hr
  have hdigit : Stops Char.isDigit (f ++ (e ++ r)) := stops_isDigit hf hfractional
  have hwhole : taken? (readWhole (w ++ (f ++ (e ++ r)))) = some (w, f ++ (e ++ r)) :=
    taken?_readWhole hw hdigit
  have hfraction : kept? (readFraction (f ++ (e ++ r))) = some (d, e ++ r) :=
    kept?_readFraction hf hfractional
  have hexponent : kept? (readExponent (e ++ r)) = some (x, r) := kept?_readExponent he hr
  rw [List.append_assoc, List.append_assoc, taken?_readUnsigned, hwhole, Option.bind_some,
    hfraction, Option.bind_some, hexponent]
  rfl

/-- A numeral begins with a digit, its sign apart. -/
theorem exists_digit_of_isUnsigned {negative : Bool} {n : Numeral} (hn : IsUnsigned negative s n) :
    ∃ c t, s = c :: t ∧ c.isDigit = true := by
  obtain ⟨hw, _, _⟩ := hn
  cases hw with
  | zero => exact ⟨'0', _, rfl, rfl⟩
  | digits _ h => exact ⟨_, _, rfl, h.2 _ (List.mem_cons_self ..)⟩

theorem exists_start_of_isNumeral {n : Numeral} (hn : IsNumeral s n) :
    ∃ c t, s = c :: t ∧ (c = '-' ∨ c.isDigit = true) := by
  cases hn with
  | positive h =>
    obtain ⟨c, t, rfl, hc⟩ := exists_digit_of_isUnsigned h
    exact ⟨c, t, rfl, .inr hc⟩
  | negative h => exact ⟨'-', _, rfl, .inl rfl⟩

theorem isNumeral_of_taken? {n : Numeral} (h : taken? (read s) = some (n, r)) :
    ∃ b, IsNumeral b n ∧ s = b ++ r := by
  unfold read at h
  split at h
  · next s =>
    rw [taken?_within] at h
    obtain ⟨b, hb, rfl⟩ := isUnsigned_of_taken? h
    exact ⟨'-' :: b, .negative hb, rfl⟩
  · obtain ⟨b, hb, rfl⟩ := isUnsigned_of_taken? h
    exact ⟨b, .positive hb, rfl⟩

theorem read_of_ne (h : s.head? ≠ some '-') : read s = readUnsigned false s := by
  unfold read
  split
  · exact absurd rfl h
  · rfl

theorem taken?_read {n : Numeral} (hn : IsNumeral s n) (hr : Stops isNumeric r) :
    taken? (read (s ++ r)) = some (n, r) := by
  cases hn with
  | positive h =>
    obtain ⟨c, t, rfl, hc⟩ := exists_digit_of_isUnsigned h
    have hne : (c :: t ++ r).head? ≠ some '-' := by
      rintro ⟨rfl⟩
      cases hc
    rw [read_of_ne hne]
    exact taken?_readUnsigned_append h hr
  | negative h =>
    rw [List.cons_append, read, taken?_within]
    exact taken?_readUnsigned_append h hr

end

end Numeral

/-! ## Numbers -/

theorem taken?_readNumber_iff {s r : Text} {k : Number} :
    taken? (readNumber s) = some (k, r) ↔
      ∃ n, taken? (Numeral.read s) = some (n, r) ∧ n.toNumber = .ok k := by
  rw [readNumber]
  cases Numeral.read s with
  | error e => simp
  | ok t =>
    obtain ⟨n, r', h⟩ := t
    dsimp only
    cases hk : n.toNumber with
    | error left => simp [hk]
    | ok k' =>
      simp only [taken?_ok, Option.some.injEq, Prod.mk.injEq]
      constructor
      · rintro ⟨rfl, rfl⟩
        exact ⟨n, ⟨rfl, rfl⟩, hk⟩
      · rintro ⟨_, ⟨rfl, rfl⟩, hk'⟩
        cases hk.symm.trans hk'
        exact ⟨rfl, rfl⟩

theorem isNumeral_of_taken?_readNumber {s r : Text} {k : Number}
    (h : taken? (readNumber s) = some (k, r)) :
    ∃ b n, IsNumeral b n ∧ n.toNumber = .ok k ∧ s = b ++ r := by
  obtain ⟨n, hread, hk⟩ := taken?_readNumber_iff.1 h
  obtain ⟨b, hb, hs⟩ := Numeral.isNumeral_of_taken? hread
  exact ⟨b, n, hb, hk, hs⟩

theorem taken?_readNumber_append {s r : Text} {n : Numeral} {k : Number} (hn : IsNumeral s n)
    (hk : n.toNumber = .ok k) (hr : Ends r) : taken? (readNumber (s ++ r)) = some (k, r) :=
  taken?_readNumber_iff.2 ⟨n, Numeral.taken?_read hn hr.stops_isNumeric, hk⟩

end StoreLog.Json
