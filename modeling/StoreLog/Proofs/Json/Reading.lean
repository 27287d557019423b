-- SUMMARY: The reader of JSON texts accepts the grammar, and each text denotes one value.
import StoreLog.Proofs.Json.Lists
import StoreLog.Proofs.Json.Numerals

/-!
# Reading JSON texts

The texts that are read are exactly the JSON texts of the grammar, and each is read as the
value that it denotes. Values are shown to be read by induction on how deeply they may nest:
what reads the values within an array or an object reads one level less.
-/

namespace StoreLog.Json

/-! ## Literals -/

theorem kept?_readLetters_iff {v v' : Value} {ls s r : Text} :
    kept? (readLetters v ls s) = some (v', r) ↔ v' = v ∧ s = ls ++ r := by
  induction ls generalizing s with
  | nil =>
    simp only [readLetters, kept?, Option.some.injEq, Prod.mk.injEq, List.nil_append]
    exact and_congr_left' eq_comm
  | cons l ls ih =>
    cases s with
    | nil => simp [readLetters, kept?]
    | cons c s =>
      by_cases hc : c = l
      · have hmap : kept? (readLetters v (l :: ls) (c :: s)) = kept? (readLetters v ls s) := by
          rw [readLetters, if_pos hc]
          cases readLetters v ls s with
          | error e => rfl
          | ok t => rfl
        simp [hmap, ih, hc]
      · simp [readLetters, hc, kept?]

theorem taken?_readLiteral_iff {v v' : Value} {ls s r : Text} {c : Char} :
    taken? (readLiteral v ls c s) = some (v', r) ↔ v' = v ∧ s = ls ++ r := by
  rw [← kept?_readLetters_iff, readLiteral]
  cases readLetters v ls s with
  | error e => simp [kept?, Except.map]
  | ok t => rfl

/-! ## Scalars -/

section

variable {nested : Option ValueReader} {c : Char} {s r t : Text} {v : Value}

theorem taken?_readFrom_string (nested : Option ValueReader) (s : Text) :
    taken? (readFrom nested '"' s) = (taken? (readQuoted s)).map (Prod.map .string id) := by
  unfold readFrom
  rw [if_neg (by decide), if_neg (by decide), if_pos rfl]
  exact taken?_map _ _ (fun _ => rfl) (fun _ => rfl)

theorem taken?_readFrom_number (nested : Option ValueReader) (hc : c = '-' ∨ c.isDigit = true)
    (s : Text) :
    taken? (readFrom nested c s) = (taken? (readNumber (c :: s))).map (Prod.map .number id) := by
  have hne : ∀ d : Char, d ≠ '-' → d.isDigit = false → c ≠ d := by
    rintro d hd hdigit rfl
    cases hc with
    | inl h => exact hd h
    | inr h => exact Bool.eq_false_iff.1 hdigit h
  unfold readFrom
  rw [if_neg (hne _ (by decide) rfl), if_neg (hne _ (by decide) rfl),
    if_neg (hne _ (by decide) rfl), if_neg (hne _ (by decide) rfl),
    if_neg (hne _ (by decide) rfl), if_neg (hne _ (by decide) rfl), if_pos hc]
  exact taken?_map _ _ (fun _ => rfl) (fun _ => rfl)

/-- A number does not begin like what may follow a value. -/
theorem isEnd_of_start (hc : c = '-' ∨ c.isDigit = true) : isEnd c = false := by
  cases hc with
  | inl h => exact h ▸ rfl
  | inr h =>
    cases hend : isEnd c with
    | false => rfl
    | true =>
      have hnot : isNumeric c = false := isNumeric_of_isEnd hend
      simp [isNumeric, h] at hnot

theorem isScalar_of_taken? (ha : c ≠ '[') (ho : c ≠ '\x7b')
    (h : taken? (readFrom nested c s) = some (v, r)) : ∃ t, IsScalar t v ∧ c :: s = t ++ r := by
  by_cases hquote : c = '"'
  · subst hquote
    rw [taken?_readFrom_string, map_value_eq_some_iff] at h
    obtain ⟨t, hquoted, rfl⟩ := h
    obtain ⟨b, hb, rfl⟩ := taken?_readQuoted_iff.1 hquoted
    exact ⟨_, .string (.mk hb), by simp⟩
  by_cases hnumber : c = '-' ∨ c.isDigit = true
  · rw [taken?_readFrom_number nested hnumber, map_value_eq_some_iff] at h
    obtain ⟨k, hread, rfl⟩ := h
    obtain ⟨b, n, hb, hk, hs⟩ := isNumeral_of_taken?_readNumber hread
    exact ⟨b, .number hb hk, hs⟩
  unfold readFrom at h
  rw [if_neg ha, if_neg ho, if_neg hquote] at h
  split at h
  · next hc =>
    obtain ⟨rfl, rfl⟩ := taken?_readLiteral_iff.1 h
    exact ⟨_, .null, hc ▸ rfl⟩
  · split at h
    · next hc =>
      obtain ⟨rfl, rfl⟩ := taken?_readLiteral_iff.1 h
      exact ⟨_, .true, hc ▸ rfl⟩
    · split at h
      · next hc =>
        obtain ⟨rfl, rfl⟩ := taken?_readLiteral_iff.1 h
        exact ⟨_, .false, hc ▸ rfl⟩
      · cases h

/-- A scalar is taken whatever reads the values within arrays and objects. -/
theorem taken?_readFrom_of_isScalar (h : IsScalar t v) (hr : Ends r) :
    ∃ c u, t = c :: u ∧ isEnd c = false ∧
      ∀ nested, taken? (readFrom nested c (u ++ r)) = some (v, r) := by
  cases h with
  | null => exact ⟨'n', _, rfl, by decide, fun _ => rfl⟩
  | true => exact ⟨'t', _, rfl, by decide, fun _ => rfl⟩
  | false => exact ⟨'f', _, rfl, by decide, fun _ => rfl⟩
  | number hn hk =>
    obtain ⟨c, u, rfl, hc⟩ := Numeral.exists_start_of_isNumeral hn
    have hread := taken?_readNumber_append hn hk hr
    refine ⟨c, u, rfl, isEnd_of_start hc, ?_⟩
    intro nested
    rw [List.cons_append] at hread
    rw [taken?_readFrom_number nested hc, hread]
    rfl
  | string h =>
    obtain @⟨b, _, hb⟩ := h
    have hquoted := taken?_readQuoted_of_isContent hb r
    refine ⟨'"', _, rfl, by decide, ?_⟩
    intro nested
    rw [List.append_assoc, List.singleton_append, taken?_readFrom_string, hquoted]
    rfl

/-! ## Values -/

theorem taken?_readFrom_array (item : ValueReader) (s : Text) :
    taken? (readFrom (some item) '[' s) = taken? (readItems item s) := by
  unfold readFrom
  rw [if_pos rfl]
  exact taken?_within _ _

theorem taken?_readFrom_object (item : ValueReader) (s : Text) :
    taken? (readFrom (some item) '\x7b' s) = taken? (readMembers item s) := by
  unfold readFrom
  rw [if_neg (by decide), if_pos rfl]
  exact taken?_within _ _

end

/-- What reads the values within an array or an object. -/
def nested? : (depth : Nat) → Option ValueReader
  | 0 => none
  | depth + 1 => some (readValue depth)

theorem taken?_readValue_nil {depth : Nat} {s : Text} (h : skipBlanks s = []) :
    taken? (readValue depth s) = none := by
  unfold readValue
  split
  · rfl
  · next h' => cases h.symm.trans h'

theorem taken?_readValue_cons {depth : Nat} {s r : Text} {c : Char} (h : skipBlanks s = c :: r) :
    taken? (readValue depth s) = taken? (readFrom (nested? depth) c r) := by
  unfold readValue
  split
  · next h' => cases h.symm.trans h'
  · next h' =>
    cases h.symm.trans h'
    cases depth with
    | zero => exact taken?_within _ _
    | succ depth => exact taken?_within _ _

/-- An array or an object holds what its own reader takes. -/
theorem isNested_of_taken? {item : ValueReader} {value : Text → Value → Prop}
    (hitem : Reads item value) {c : Char} {s r : Text} {v : Value} (hc : c = '[' ∨ c = '\x7b')
    (h : taken? (readFrom (some item) c s) = some (v, r)) :
    ∃ t, IsNested value t v ∧ c :: s = t ++ r := by
  obtain (rfl | rfl) := hc
  · rw [taken?_readFrom_array, taken?_readItems_iff hitem] at h
    obtain ⟨b, vs, hb, rfl, rfl⟩ := h
    exact ⟨_, .array hb, by simp⟩
  · rw [taken?_readFrom_object, taken?_readMembers_iff hitem] at h
    obtain ⟨b, ms, hb, rfl, rfl⟩ := h
    exact ⟨_, .object hb, by simp⟩

theorem taken?_readFrom_of_isNested {item : ValueReader} {value : Text → Value → Prop}
    (hitem : Reads item value) {t : Text} {v : Value} (h : IsNested value t v) :
    ∃ c u, t = c :: u ∧ isEnd c = false ∧
      ∀ r, taken? (readFrom (some item) c (u ++ r)) = some (v, r) := by
  cases h with
  | array hs =>
    refine ⟨'[', _, rfl, by decide, ?_⟩
    intro r
    rw [taken?_readFrom_array, List.append_assoc]
    exact (taken?_readItems_iff hitem).2 ⟨_, _, hs, rfl, rfl⟩
  | object hs =>
    refine ⟨'\x7b', _, rfl, by decide, ?_⟩
    intro r
    rw [taken?_readFrom_object, List.append_assoc]
    exact (taken?_readMembers_iff hitem).2 ⟨_, _, hs, rfl, rfl⟩

/-- A value is read from its first character on, if `nested` reads the values within it. -/
structure ReadsFrom (nested : Option ValueReader) (value : Text → Value → Prop) : Prop where
  sound : ∀ {c s r v}, taken? (readFrom nested c s) = some (v, r) → ∃ t, value t v ∧ c :: s = t ++ r
  complete : ∀ {t v r}, value t v → Ends r → ∃ c u, t = c :: u ∧ isEnd c = false ∧
    taken? (readFrom nested c (u ++ r)) = some (v, r)

theorem readsFrom_none : ReadsFrom none IsScalar where
  sound := by
    intro c s r v h
    refine isScalar_of_taken? ?_ ?_ h
    · rintro rfl
      cases h
    · rintro rfl
      cases h
  complete := by
    intro t v r h hr
    obtain ⟨c, u, ht, hc, hread⟩ := taken?_readFrom_of_isScalar h hr
    exact ⟨c, u, ht, hc, hread none⟩

theorem readsFrom_some {item : ValueReader} {value : Text → Value → Prop}
    (hitem : Reads item value) :
    ReadsFrom (some item) (fun s v => IsScalar s v ∨ IsNested value s v) where
  sound := by
    intro c s r v h
    by_cases hc : c = '[' ∨ c = '\x7b'
    · obtain ⟨t, ht, hs⟩ := isNested_of_taken? hitem hc h
      exact ⟨t, .inr ht, hs⟩
    · obtain ⟨t, ht, hs⟩ := isScalar_of_taken? (fun hb => hc (.inl hb)) (fun hb => hc (.inr hb)) h
      exact ⟨t, .inl ht, hs⟩
  complete := by
    rintro t v r (h | h) hr
    · obtain ⟨c, u, ht, hc, hread⟩ := taken?_readFrom_of_isScalar h hr
      exact ⟨c, u, ht, hc, hread _⟩
    · obtain ⟨c, u, ht, hc, hread⟩ := taken?_readFrom_of_isNested hitem h
      exact ⟨c, u, ht, hc, hread r⟩

theorem ReadsFrom.reads {depth : Nat} {value : Text → Value → Prop}
    (h : ReadsFrom (nested? depth) value) : Reads (readValue depth) value where
  sound := by
    intro s r v hs
    obtain ⟨a, ha, heq⟩ := exists_blanks s
    cases hskip : skipBlanks s with
    | nil =>
      rw [taken?_readValue_nil hskip] at hs
      cases hs
    | cons c u =>
      rw [taken?_readValue_cons hskip] at hs
      obtain ⟨t, ht, hcons⟩ := h.sound hs
      rw [hskip, hcons] at heq
      exact ⟨a, t, ha, ht, heq⟩
  complete := by
    intro a t v r ha ht hr
    obtain ⟨c, u, rfl, hc, hread⟩ := h.complete ht hr
    have hskip : skipBlanks (a ++ (c :: u ++ r)) = c :: (u ++ r) := by
      rw [skipBlanks_append ha, List.cons_append, skipBlanks_cons (isBlank_of_isEnd hc)]
    rw [taken?_readValue_cons hskip]
    exact hread
  starts := by
    intro t v ht
    obtain ⟨c, u, rfl, hc, _⟩ := h.complete ht ends_nil
    exact ⟨c, u, rfl, hc⟩

theorem reads_readValue (depth : Nat) : Reads (readValue depth) (IsValue depth) := by
  induction depth with
  | zero =>
    have h : ReadsFrom (nested? 0) (IsValue 0) := readsFrom_none
    exact h.reads
  | succ depth ih =>
    have h : ReadsFrom (nested? (depth + 1)) (IsValue (depth + 1)) := readsFrom_some ih
    exact h.reads

/-! ## Texts -/

theorem parse_eq_ok_iff_taken? {s : Text} {v : Value} :
    parse s = .ok v ↔ ∃ r, taken? (readValue maxDepth s) = some (v, r) ∧ skipBlanks r = [] := by
  rw [parse]
  cases readValue maxDepth s with
  | error e => simp
  | ok t =>
    obtain ⟨v', r, h⟩ := t
    simp only [taken?_ok, Option.some.injEq, Prod.mk.injEq]
    cases hskip : skipBlanks r with
    | nil =>
      constructor
      · rintro ⟨rfl⟩
        exact ⟨r, ⟨rfl, rfl⟩, hskip⟩
      · rintro ⟨_, ⟨rfl, _⟩, _⟩
        rfl
    | cons c u =>
      constructor
      · intro hparse
        cases hparse
      · rintro ⟨_, ⟨_, rfl⟩, hnil⟩
        cases hskip.symm.trans hnil

/-- The texts that are parsed are the JSON texts, and each is parsed as what it denotes. -/
theorem parse_eq_ok_iff {s : Text} {v : Value} : parse s = .ok v ↔ IsText s v := by
  rw [parse_eq_ok_iff_taken?]
  constructor
  · rintro ⟨r, hread, hskip⟩
    obtain ⟨a, t, ha, ht, rfl⟩ := (reads_readValue maxDepth).sound hread
    exact .mk ha ht (blanks_of_skipBlanks hskip)
  · rintro ⟨ha, ht, hb⟩
    have hend := ends_nil.append_blanks hb
    rw [List.append_nil] at hend
    exact ⟨_, (reads_readValue maxDepth).complete ha ht hend, skipBlanks_of_blanks hb⟩

theorem Padded.of_item {item : Text → Value → Prop} {s : Text} {v : Value} (h : item s v) :
    Padded item s v := by
  have hpadded := Padded.mk blanks_nil h blanks_nil
  rwa [List.append_nil, List.nil_append] at hpadded

/-- An array of one item. -/
theorem isValue_singleton {depth : Nat} {s : Text} {v : Value} (h : IsValue depth s v) :
    IsValue (depth + 1) ('[' :: (s ++ [']'])) (.array [v]) :=
  .inr (.array (.things (.single (.of_item h))))

/-- A JSON text denotes one value. -/
theorem IsText.unique {s : Text} {v v' : Value} (h : IsText s v) (h' : IsText s v') : v = v' := by
  have heq := (parse_eq_ok_iff.2 h).symm.trans (parse_eq_ok_iff.2 h')
  cases heq
  rfl

theorem exists_parse_eq_error_iff {s : Text} :
    (∃ e, parse s = .error e) ↔ ¬∃ v, IsText s v := by
  simp only [← parse_eq_ok_iff]
  cases parse s with
  | error e => simp
  | ok v => simp

end StoreLog.Json
