-- SUMMARY: Readers that take something off the front of a text and leave a shorter rest.
import StoreLog.Text.Basic

/-!
# Reading from the front

A reader takes something off the front of a text and hands on the rest. That the
rest is shorter travels with the result, so a reader that calls itself on the
rest ends.
-/

namespace StoreLog

/-- A value read off the front of `s`, and what is left. -/
structure Taken (s : Text) (α : Type) where
  value : α
  rest : Text
  shorter : rest.length < s.length

/-- A value read off the front of `s` by a reader that may take nothing, and what is
left. -/
abbrev Left (s : Text) (α : Type) :=
  { r : α × Text // r.2.length ≤ s.length }

namespace Taken

variable {s t : Text} {α β : Type}

def map (f : α → β) (r : Taken s α) : Taken s β :=
  ⟨f r.value, r.rest, r.shorter⟩

/-- Reading that began further back. -/
def within (r : Taken s α) (h : s.length ≤ t.length) : Taken t α :=
  ⟨r.value, r.rest, Nat.lt_of_lt_of_le r.shorter h⟩

@[simp] theorem map_value (f : α → β) (r : Taken s α) : (r.map f).value = f r.value := rfl
@[simp] theorem map_rest (f : α → β) (r : Taken s α) : (r.map f).rest = r.rest := rfl
@[simp] theorem within_value (r : Taken s α) (h : s.length ≤ t.length) :
    (r.within h).value = r.value := rfl
@[simp] theorem within_rest (r : Taken s α) (h : s.length ≤ t.length) :
    (r.within h).rest = r.rest := rfl

end Taken

theorem length_dropWhile_le (p : Char → Bool) (s : Text) : (s.dropWhile p).length ≤ s.length :=
  (List.dropWhile_suffix p).length_le

theorem length_lt_cons (c : Char) (s : Text) : s.length < (c :: s).length :=
  Nat.lt_succ_self _

theorem length_le_cons (c : Char) (s : Text) : s.length ≤ (c :: s).length :=
  Nat.le_succ _

end StoreLog
