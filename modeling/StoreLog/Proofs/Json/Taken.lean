-- SUMMARY: Readers without their faults: what is taken, what is left, what may follow.
import StoreLog.Proofs.Json.Grammar

/-!
# What a reader takes

What is said of the readers of JSON leaves out which fault a refused text has: a reader
either takes a value off the front and leaves the rest, or it takes nothing. A value ends
where what follows cannot go on with it, and in a JSON text only blanks, commas and closing
characters follow a value.
-/

namespace StoreLog.Json

/-! ## Readers -/

/-- The value that a reader takes and the text that it leaves, if it takes anything. -/
def taken? {s : Text} {α : Type} : Except Fault (Taken s α) → Option (α × Text)
  | .ok t => some (t.value, t.rest)
  | .error _ => none

/-- The same for a reader that may take nothing of the text. -/
def kept? {s : Text} {α : Type} : Except Fault (Left s α) → Option (α × Text)
  | .ok t => some t.1
  | .error _ => none

section

variable {s u : Text} {α β : Type}

@[simp] theorem taken?_ok (t : Taken s α) :
    taken? (.ok t : Except Fault (Taken s α)) = some (t.value, t.rest) := rfl

@[simp] theorem taken?_error (e : Fault) :
    taken? (.error e : Except Fault (Taken s α)) = none := rfl

/-- A value that is changed after it was taken. -/
theorem taken?_map (x : Except Fault (Taken s α)) {g : Taken s α → Taken u β} (f : α → β)
    (hv : ∀ t, (g t).value = f t.value) (hr : ∀ t, (g t).rest = t.rest) :
    taken? (x.map g) = (taken? x).map (Prod.map f id) := by
  cases x with
  | error e => rfl
  | ok t => simp [Except.map, hv, hr]

theorem taken?_eq_some_iff {x : Except Fault (Taken s α)} {a : α} {r : Text} :
    taken? x = some (a, r) ↔ ∃ h, x = .ok ⟨a, r, h⟩ := by
  cases x with
  | error e => simp
  | ok t =>
    obtain ⟨b, r', h'⟩ := t
    simp only [taken?_ok, Option.some.injEq, Prod.mk.injEq, Except.ok.injEq, Taken.mk.injEq]
    constructor
    · rintro ⟨rfl, rfl⟩
      exact ⟨h', rfl, rfl⟩
    · rintro ⟨-, h⟩
      exact h

theorem map_value_eq_some_iff {x : Option (α × Text)} {f : α → β} {b : β} {r : Text} :
    x.map (Prod.map f id) = some (b, r) ↔ ∃ a, x = some (a, r) ∧ f a = b := by
  simp only [Option.map_eq_some_iff, Prod.exists, Prod.map_apply, id_eq, Prod.mk.injEq]
  constructor
  · rintro ⟨a, r', hx, rfl, rfl⟩
    exact ⟨a, hx, rfl⟩
  · rintro ⟨a, hx, rfl⟩
    exact ⟨a, r, hx, rfl, rfl⟩

theorem taken?_within (x : Except Fault (Taken s α)) (h : s.length ≤ u.length) :
    taken? (x.map (·.within h)) = taken? x := by
  cases x with
  | error e => rfl
  | ok t => rfl

end

/-! ## Blanks -/

theorem isBlank_iff {c : Char} :
    isBlank c = true ↔ c = ' ' ∨ c = '\n' ∨ c = '\t' ∨ c = '\r' := by
  simp only [isBlank, Bool.or_eq_true, beq_iff_eq, or_assoc]

theorem blanks_iff {s : Text} : Blanks s ↔ ∀ c ∈ s, isBlank c = true := by
  simp only [Blanks, isBlank_iff]

theorem blanks_nil : Blanks [] :=
  fun _ h => nomatch h

theorem skipBlanks_append {a : Text} (ha : Blanks a) (s : Text) :
    skipBlanks (a ++ s) = skipBlanks s :=
  List.dropWhile_append_of_pos (blanks_iff.1 ha)

theorem skipBlanks_cons {c : Char} (hc : isBlank c = false) (s : Text) :
    skipBlanks (c :: s) = c :: s := by
  simp [skipBlanks, hc]

theorem skipBlanks_of_blanks {s : Text} (h : Blanks s) : skipBlanks s = [] := by
  have := skipBlanks_append h []
  rwa [List.append_nil] at this

/-- The blanks that are skipped. -/
theorem exists_blanks (s : Text) : ∃ a, Blanks a ∧ s = a ++ skipBlanks s := by
  refine ⟨s.takeWhile isBlank, ?_, (List.takeWhile_append_dropWhile ..).symm⟩
  exact blanks_iff.2 (List.all_eq_true.1 List.all_takeWhile)

theorem blanks_of_skipBlanks {s : Text} (h : skipBlanks s = []) : Blanks s := by
  obtain ⟨a, ha, hs⟩ := exists_blanks s
  rw [h, List.append_nil] at hs
  rwa [hs]

/-! ## What may follow -/

/-- The text does not go on with such a character. -/
def Stops (p : Char → Bool) (s : Text) : Prop :=
  ∀ c ∈ s.head?, p c = false

theorem stops_nil (p : Char → Bool) : Stops p [] :=
  fun _ h => nomatch h

theorem stops_cons {p : Char → Bool} {c : Char} {s : Text} : Stops p (c :: s) ↔ p c = false := by
  simp [Stops]

theorem Stops.mono {p q : Char → Bool} {s : Text} (h : Stops p s)
    (hpq : ∀ c, q c = true → p c = true) : Stops q s := by
  intro c hc
  have hp : p c = false := h c hc
  cases hq : q c with
  | false => rfl
  | true => exact absurd (hpq c hq) (Bool.eq_false_iff.1 hp)

/-- Characters that may stand directly after a value. -/
def isEnd (c : Char) : Bool :=
  isBlank c || c == ',' || c == ']' || c == '\x7d'

theorem isBlank_of_isEnd {c : Char} (h : isEnd c = false) : isBlank c = false := by
  simp only [isEnd, Bool.or_eq_false_iff] at h
  exact h.1.1.1

/-- What follows a value in a JSON text: nothing, or a character that ends the value. -/
def Ends (s : Text) : Prop :=
  Stops (fun c => !isEnd c) s

theorem ends_nil : Ends [] :=
  stops_nil _

theorem ends_cons {c : Char} {s : Text} : Ends (c :: s) ↔ isEnd c = true := by
  simp [Ends, stops_cons]

theorem Ends.append_blanks {a s : Text} (hs : Ends s) (ha : Blanks a) : Ends (a ++ s) := by
  cases a with
  | nil => exact hs
  | cons c a =>
    refine ends_cons.2 ?_
    have hc : isBlank c = true := isBlank_iff.2 (ha c (List.mem_cons_self ..))
    simp [isEnd, hc]

end StoreLog.Json
