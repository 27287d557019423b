-- SUMMARY: Readers of arrays and objects take what the grammar calls a list.
import StoreLog.Proofs.Json.Strings

/-!
# Reading lists

Arrays and objects are read alike: one thing, then a comma and the next one, until the
closing character. A reader of such a list takes exactly the lists of the grammar if the
reader of its things takes exactly the things, and that is shown here once for both. A
thing has its blanks around it; of the blanks after it, it is the reader of what follows
that takes them.
-/

namespace StoreLog.Json

/-! ## Lists -/

section

variable {α : Type} {one : Text → α → Prop} {one? : Text → Option (α × Text)} {close : Char}

/-- The reader `one?` takes the things of the grammar `one`, up to the blanks that follow
them, and a thing does not begin like what may follow it. -/
structure Takes (one : Text → α → Prop) (one? : Text → Option (α × Text)) : Prop where
  sound : ∀ {s r x}, one? s = some (x, r) → ∃ p, s = p ++ r ∧ ∀ w, Blanks w → one (p ++ w) x
  complete : ∀ {b x}, one b x →
    ∃ p w, b = p ++ w ∧ Blanks w ∧ ∀ r, Ends r → one? (p ++ r) = some (x, r)
  starts : ∀ {b x}, one b x → ∀ r, ∃ c t, skipBlanks (b ++ r) = c :: t ∧ isEnd c = false

/-- Take one thing, and then what a reader of more things takes. -/
def things? (one? : Text → Option (α × Text)) (more? : Text → Option (List α × Text))
    (s : Text) : Option (List α × Text) :=
  (one? s).bind fun p => (more? p.2).map (Prod.map (p.1 :: ·) id)

/-- The reader `more?` closes the list, or goes on with a comma and more things. -/
structure GoesOn (close : Char) (one? : Text → Option (α × Text))
    (more? : Text → Option (List α × Text)) : Prop where
  isBlank_close : isBlank close = false
  isEnd_close : isEnd close = true
  close_ne_comma : close ≠ ','
  nil : ∀ {s}, skipBlanks s = [] → more? s = none
  cons : ∀ {s c r}, skipBlanks s = c :: r →
    more? s =
      if c = close then some ([], r)
      else if c = ',' then
        if (skipBlanks r).head? = some close then none else things? one? more? r
      else none

variable {more? : Text → Option (List α × Text)}

theorem things?_eq_some_iff {s r : Text} {xs : List α} :
    things? one? more? s = some (xs, r) ↔
      ∃ x r' ys, one? s = some (x, r') ∧ more? r' = some (ys, r) ∧ xs = x :: ys := by
  simp only [things?, Option.bind_eq_some_iff, map_value_eq_some_iff, Prod.exists]
  constructor
  · rintro ⟨x, r', hone, ys, hmore, rfl⟩
    exact ⟨x, r', ys, hone, hmore, rfl⟩
  · rintro ⟨x, r', ys, hone, hmore, rfl⟩
    exact ⟨x, r', hone, ys, hmore, rfl⟩

theorem GoesOn.ne_close (h : GoesOn close one? more?) {c : Char} (hc : isEnd c = false) :
    c ≠ close := by
  rintro rfl
  exact Bool.eq_false_iff.1 hc h.isEnd_close

theorem GoesOn.close_append (h : GoesOn close one? more?) {w : Text} (hw : Blanks w) (r : Text) :
    more? (w ++ close :: r) = some ([], r) := by
  have hskip : skipBlanks (w ++ close :: r) = close :: r := by
    rw [skipBlanks_append hw, skipBlanks_cons h.isBlank_close]
  rw [h.cons hskip]
  exact if_pos rfl

theorem GoesOn.comma_append (h : GoesOn close one? more?) {w t : Text} (hw : Blanks w)
    (ht : (skipBlanks t).head? ≠ some close) :
    more? (w ++ ',' :: t) = things? one? more? t := by
  have hskip : skipBlanks (w ++ ',' :: t) = ',' :: t := by
    rw [skipBlanks_append hw, skipBlanks_cons (by decide)]
  rw [h.cons hskip, if_neg h.close_ne_comma.symm, if_pos rfl, if_neg ht]

theorem GoesOn.cases (h : GoesOn close one? more?) {s r : Text} {xs : List α}
    (hs : more? s = some (xs, r)) :
    (∃ w, Blanks w ∧ s = w ++ close :: r ∧ xs = []) ∨
      ∃ w t, Blanks w ∧ s = w ++ ',' :: t ∧ things? one? more? t = some (xs, r) := by
  obtain ⟨w, hw, heq⟩ := exists_blanks s
  cases hskip : skipBlanks s with
  | nil =>
    rw [h.nil hskip] at hs
    cases hs
  | cons c t =>
    rw [hskip] at heq
    rw [h.cons hskip] at hs
    split at hs
    · next hc =>
      cases hs
      exact .inl ⟨w, hw, hc ▸ heq, rfl⟩
    · split at hs
      · next hc =>
        split at hs
        · cases hs
        · exact .inr ⟨w, t, hw, hc ▸ heq, hs⟩
      · cases hs

theorem separated_of_things? (hone : Takes one one?) (hmore : GoesOn close one? more?)
    {s r : Text} {xs : List α} (h : things? one? more? s = some (xs, r)) :
    ∃ b, Separated one b xs ∧ s = b ++ close :: r := by
  -- What follows a comma is shorter, so the induction is on the length of the text.
  induction hn : s.length using Nat.strongRecOn generalizing s xs with
  | _ n ih =>
    obtain ⟨x, r', ys, hx, hys, rfl⟩ := things?_eq_some_iff.1 h
    obtain ⟨p, rfl, hp⟩ := hone.sound hx
    cases hmore.cases hys with
    | inl hclose =>
      obtain ⟨w, hw, rfl, rfl⟩ := hclose
      exact ⟨p ++ w, .single (hp w hw), by simp⟩
    | inr hcomma =>
      obtain ⟨w, t, hw, rfl, ht⟩ := hcomma
      have hshorter : t.length < n := by
        rw [← hn]
        simp only [List.length_append, List.length_cons]
        omega
      obtain ⟨b, hb, rfl⟩ := ih t.length hshorter ht rfl
      exact ⟨p ++ w ++ ',' :: b, .cons (hp w hw) hb, by simp⟩

/-- Things begin as the first of them does. -/
theorem Separated.starts {b : Text} {xs : List α} (h : Separated one b xs)
    (hone : Takes one one?) (r : Text) :
    ∃ c t, skipBlanks (b ++ r) = c :: t ∧ isEnd c = false := by
  cases h with
  | single hx => exact hone.starts hx r
  | cons hx ht =>
    rw [List.append_assoc]
    exact hone.starts hx _

theorem things?_of_separated (hone : Takes one one?) (hmore : GoesOn close one? more?)
    {b : Text} {xs : List α} (h : Separated one b xs) (r : Text) :
    things? one? more? (b ++ close :: r) = some (xs, r) := by
  induction h with
  | single hx =>
    obtain ⟨p, w, rfl, hw, hp⟩ := hone.complete hx
    have hend : Ends (w ++ close :: r) := (ends_cons.2 hmore.isEnd_close).append_blanks hw
    rw [List.append_assoc]
    exact things?_eq_some_iff.2 ⟨_, _, [], hp _ hend, hmore.close_append hw r, rfl⟩
  | @cons s t x xs hx ht ih =>
    obtain ⟨p, w, rfl, hw, hp⟩ := hone.complete hx
    have hend : Ends (w ++ ',' :: (t ++ close :: r)) :=
      (ends_cons.2 (by decide)).append_blanks hw
    have hstart : (skipBlanks (t ++ close :: r)).head? ≠ some close := by
      obtain ⟨c, u, hskip, hc⟩ := ht.starts hone (close :: r)
      rw [hskip]
      rintro ⟨rfl⟩
      exact hmore.ne_close hc rfl
    rw [List.append_assoc, List.append_assoc, List.cons_append]
    refine things?_eq_some_iff.2 ⟨x, _, xs, hp _ hend, ?_, rfl⟩
    rw [hmore.comma_append hw hstart, ih]

/-- Take what stands between brackets, and the closing one. -/
def listed? (close : Char) (one? : Text → Option (α × Text))
    (more? : Text → Option (List α × Text)) (s : Text) : Option (List α × Text) :=
  match skipBlanks s with
  | [] => none
  | c :: r => if c = close then some ([], r) else things? one? more? s

theorem listed?_nil {s : Text} (h : skipBlanks s = []) : listed? close one? more? s = none := by
  rw [listed?, h]

theorem listed?_cons {s t : Text} {c : Char} (h : skipBlanks s = c :: t) :
    listed? close one? more? s = if c = close then some ([], t) else things? one? more? s := by
  rw [listed?, h]

theorem listed?_iff (hone : Takes one one?) (hmore : GoesOn close one? more?) {s r : Text}
    {xs : List α} :
    listed? close one? more? s = some (xs, r) ↔ ∃ b, Listed one b xs ∧ s = b ++ close :: r := by
  constructor
  · intro h
    obtain ⟨w, hw, heq⟩ := exists_blanks s
    cases hskip : skipBlanks s with
    | nil =>
      rw [listed?_nil hskip] at h
      cases h
    | cons c t =>
      rw [listed?_cons hskip] at h
      split at h
      · next hc =>
        cases h
        refine ⟨w, .empty hw, ?_⟩
        rw [heq, hskip, hc]
      · obtain ⟨b, hb, rfl⟩ := separated_of_things? hone hmore h
        exact ⟨b, .things hb, rfl⟩
  · rintro ⟨b, hb, rfl⟩
    cases hb with
    | empty hw =>
      have hskip : skipBlanks (b ++ close :: r) = close :: r := by
        rw [skipBlanks_append hw, skipBlanks_cons hmore.isBlank_close]
      rw [listed?_cons hskip]
      exact if_pos rfl
    | things h =>
      obtain ⟨c, t, hskip, hc⟩ := h.starts hone (close :: r)
      rw [listed?_cons hskip, if_neg (hmore.ne_close hc)]
      exact things?_of_separated hone hmore h r

end

/-! ## Arrays -/

/-- A reader takes exactly the values of a grammar, blanks before them included. -/
structure Reads (item : ValueReader) (value : Text → Value → Prop) : Prop where
  sound : ∀ {s r v}, taken? (item s) = some (v, r) →
    ∃ a t, Blanks a ∧ value t v ∧ s = a ++ (t ++ r)
  complete : ∀ {a t v r}, Blanks a → value t v → Ends r →
    taken? (item (a ++ (t ++ r))) = some (v, r)
  starts : ∀ {t v}, value t v → ∃ c u, t = c :: u ∧ isEnd c = false

section

variable {item : ValueReader} {value : Text → Value → Prop}

theorem Reads.takes (h : Reads item value) :
    Takes (Padded value) (fun s => taken? (item s)) where
  sound := by
    intro s r v hs
    obtain ⟨a, t, ha, ht, rfl⟩ := h.sound hs
    refine ⟨a ++ t, by simp, ?_⟩
    intro w hw
    rw [List.append_assoc]
    exact .mk ha ht hw
  complete := by
    rintro _ v ⟨ha, ht, hb⟩
    refine ⟨_ ++ _, _, (List.append_assoc ..).symm, hb, ?_⟩
    intro r hr
    rw [List.append_assoc]
    exact h.complete ha ht hr
  starts := by
    rintro _ v ⟨ha, ht, hb⟩ r
    obtain ⟨c, u, rfl, hc⟩ := h.starts ht
    rw [List.append_assoc, skipBlanks_append ha, List.append_assoc, List.cons_append,
      skipBlanks_cons (isBlank_of_isEnd hc)]
    exact ⟨c, _, rfl, hc⟩

theorem goesOn_readMoreItems (item : ValueReader) :
    GoesOn ']' (fun s => taken? (item s)) (fun s => taken? (readMoreItems item s)) where
  isBlank_close := by decide
  isEnd_close := by decide
  close_ne_comma := by decide
  nil := by
    intro s h
    rw [readMoreItems]
    split
    · rfl
    · next h' => cases h.symm.trans h'
  cons := by
    intro s c r h
    rw [readMoreItems]
    split
    · next h' => cases h.symm.trans h'
    · next h' =>
      cases h.symm.trans h'
      dsimp only
      split
      · rfl
      · split
        · split
          · rfl
          · rw [things?]
            cases item r with
            | error e => rfl
            | ok t => exact taken?_map _ _ (fun _ => rfl) (fun _ => rfl)
        · rfl

theorem taken?_readItems (s : Text) :
    taken? (readItems item s) =
      (listed? ']' (fun s => taken? (item s)) (fun s => taken? (readMoreItems item s)) s).map
        (Prod.map .array id) := by
  rw [readItems]
  split
  · next h =>
    rw [listed?_nil h]
    rfl
  · next c r h =>
    rw [listed?_cons h]
    dsimp only
    split
    · rfl
    · rw [things?]
      cases item s with
      | error e => rfl
      | ok t =>
        rw [taken?_ok, Option.bind_some, Option.map_map]
        exact taken?_map _ (Value.array ∘ (t.value :: ·)) (fun _ => rfl) (fun _ => rfl)

theorem taken?_readItems_iff (h : Reads item value) {s r : Text} {v : Value} :
    taken? (readItems item s) = some (v, r) ↔
      ∃ b vs, Listed (Padded value) b vs ∧ v = .array vs ∧ s = b ++ ']' :: r := by
  simp only [taken?_readItems, map_value_eq_some_iff,
    listed?_iff h.takes (goesOn_readMoreItems item)]
  constructor
  · rintro ⟨vs, ⟨b, hb, hs⟩, rfl⟩
    exact ⟨b, vs, hb, rfl, hs⟩
  · rintro ⟨b, vs, hb, rfl, hs⟩
    exact ⟨vs, ⟨b, hb, hs⟩, rfl⟩

/-! ## Objects -/

/-- A member is read by its name, the colon and what reads the value. -/
theorem taken?_readMember (item : ValueReader) {s t u name : Text}
    (hname : taken? (readQuoted s) = some (name, t)) (hcolon : skipBlanks t = ':' :: u) :
    taken? (readMember item ('"' :: s)) = (taken? (item u)).map (Prod.map (name, ·) id) := by
  obtain ⟨_, hquoted⟩ := taken?_eq_some_iff.1 hname
  rw [readMember, if_pos rfl, hquoted]
  dsimp only
  split
  · next h => cases h.symm.trans hcolon
  · next d u' h =>
    cases h.symm.trans hcolon
    exact taken?_map _ _ (fun _ => rfl) (fun _ => rfl)

theorem exists_of_taken?_readMember {s : Text} {p : (Text × Value) × Text}
    (h : taken? (readMember item s) = some p) :
    ∃ s' name t u, s = '"' :: s' ∧ taken? (readQuoted s') = some (name, t) ∧
      skipBlanks t = ':' :: u := by
  unfold readMember at h
  split at h
  · cases h
  · next c s' =>
    split at h
    · next hc =>
      split at h
      · cases h
      · next name t ht hquoted =>
        split at h
        · cases h
        · next d u hskip =>
          split at h
          · next hd =>
            refine ⟨s', name, t, u, hc ▸ rfl, ?_, hd ▸ hskip⟩
            rw [hquoted, taken?_ok]
          · cases h
    · cases h

theorem taken?_readMember_iff {s r name : Text} {v : Value} :
    taken? (readMember item s) = some ((name, v), r) ↔
      ∃ q b u, IsString q name ∧ Blanks b ∧ taken? (item u) = some (v, r) ∧
        s = q ++ (b ++ ':' :: u) := by
  constructor
  · intro h
    obtain ⟨s, name', t, u, rfl, hname, hcolon⟩ := exists_of_taken?_readMember h
    rw [taken?_readMember item hname hcolon, map_value_eq_some_iff] at h
    obtain ⟨_, hitem, ⟨rfl, rfl⟩⟩ := h
    obtain ⟨q, hq, rfl⟩ := taken?_readQuoted_iff.1 hname
    obtain ⟨b, hb, ht⟩ := exists_blanks t
    rw [hcolon] at ht
    refine ⟨_, b, u, .mk hq, hb, hitem, ?_⟩
    rw [ht]
    simp
  · rintro ⟨_, b, u, hstring, hb, hitem, rfl⟩
    obtain @⟨q, _, hq⟩ := hstring
    have hname : taken? (readQuoted (q ++ '"' :: (b ++ ':' :: u))) = some (name, b ++ ':' :: u) :=
      taken?_readQuoted_iff.2 ⟨q, hq, rfl⟩
    have hcolon : skipBlanks (b ++ ':' :: u) = ':' :: u := by
      rw [skipBlanks_append hb, skipBlanks_cons (by decide)]
    rw [List.cons_append, List.append_assoc, List.singleton_append,
      taken?_readMember item hname hcolon, hitem]
    rfl

/-- The reader of a member, blanks before it included. -/
abbrev member? (item : ValueReader) (s : Text) : Option ((Text × Value) × Text) :=
  taken? (readMember item (skipBlanks s))

theorem Reads.takes_member (h : Reads item value) :
    Takes (IsMember value) (member? item) where
  sound := by
    rintro s r ⟨name, v⟩ hs
    obtain ⟨a, ha, heq⟩ := exists_blanks s
    obtain ⟨q, b, u, hq, hb, hitem, hskip⟩ := taken?_readMember_iff.1 hs
    obtain ⟨a', t, ha', ht, rfl⟩ := h.sound hitem
    refine ⟨a ++ (q ++ (b ++ ':' :: (a' ++ t))), ?_, ?_⟩
    · rw [heq, hskip]
      simp
    · intro w hw
      have hpadded : Padded value (a' ++ (t ++ w)) v := .mk ha' ht hw
      simpa using IsMember.mk ha hq hb hpadded
  complete := by
    intro _ _ hmember
    obtain @⟨a, q, b, _, name, v, ha, hq, hb, hpadded⟩ := hmember
    obtain @⟨a', t, w, _, ha', ht, hw⟩ := hpadded
    refine ⟨a ++ (q ++ (b ++ ':' :: (a' ++ t))), w, by simp, hw, ?_⟩
    intro r hr
    have hitem : taken? (item (a' ++ (t ++ r))) = some (v, r) := h.complete ha' ht hr
    have hskip : skipBlanks (a ++ (q ++ (b ++ ':' :: (a' ++ t))) ++ r) =
        q ++ (b ++ ':' :: (a' ++ (t ++ r))) := by
      obtain ⟨_⟩ := hq
      rw [List.append_assoc, skipBlanks_append ha, List.cons_append, List.cons_append,
        skipBlanks_cons (by decide)]
      simp
    rw [member?, hskip]
    exact taken?_readMember_iff.2 ⟨q, b, _, hq, hb, hitem, rfl⟩
  starts := by
    rintro _ _ ⟨ha, ⟨_⟩, _, _⟩ r
    rw [List.append_assoc, skipBlanks_append ha, List.cons_append, List.cons_append,
      skipBlanks_cons (by decide)]
    exact ⟨'"', _, rfl, by decide⟩

theorem goesOn_readMoreMembers (item : ValueReader) :
    GoesOn '\x7d' (member? item) (fun s => taken? (readMoreMembers item s)) where
  isBlank_close := by decide
  isEnd_close := by decide
  close_ne_comma := by decide
  nil := by
    intro s h
    rw [readMoreMembers]
    split
    · rfl
    · next h' => cases h.symm.trans h'
  cons := by
    intro s c r h
    rw [readMoreMembers]
    split
    · next h' => cases h.symm.trans h'
    · next h' =>
      cases h.symm.trans h'
      dsimp only
      split
      · rfl
      · split
        · split
          · rfl
          · rw [things?, member?]
            cases readMember item (skipBlanks r) with
            | error e => rfl
            | ok t => exact taken?_map _ _ (fun _ => rfl) (fun _ => rfl)
        · rfl

theorem taken?_readMembers (item : ValueReader) (s : Text) :
    taken? (readMembers item s) =
      (listed? '\x7d' (member? item) (fun s => taken? (readMoreMembers item s)) s).map
        (Prod.map .object id) := by
  rw [readMembers]
  split
  · next h =>
    rw [listed?_nil h]
    rfl
  · next c r h =>
    rw [listed?_cons h]
    dsimp only
    split
    · rfl
    · have hmember : member? item s = taken? (readMember item (c :: r)) := by rw [member?, h]
      rw [things?, hmember]
      cases readMember item (c :: r) with
      | error e => rfl
      | ok t =>
        rw [taken?_ok, Option.bind_some, Option.map_map]
        exact taken?_map _ (Value.object ∘ (t.value :: ·)) (fun _ => rfl) (fun _ => rfl)

theorem taken?_readMembers_iff (h : Reads item value) {s r : Text} {v : Value} :
    taken? (readMembers item s) = some (v, r) ↔
      ∃ b ms, Listed (IsMember value) b ms ∧ v = .object ms ∧ s = b ++ '\x7d' :: r := by
  simp only [taken?_readMembers, map_value_eq_some_iff,
    listed?_iff h.takes_member (goesOn_readMoreMembers item)]
  constructor
  · rintro ⟨ms, ⟨b, hb, hs⟩, rfl⟩
    exact ⟨b, ms, hb, rfl, hs⟩
  · rintro ⟨b, ms, hb, rfl, hs⟩
    exact ⟨ms, ⟨b, hb, hs⟩, rfl⟩

end

end StoreLog.Json
