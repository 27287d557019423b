-- SUMMARY: Splitting at a separator, and putting together again.
import Mathlib.Data.List.Basic

/-!
# Splitting at a separator

What holds of the pieces between separators, by an induction that cuts a list at its
first separator.
-/

namespace StoreLog

variable {α : Type} {a : α}

/-- A list has no separator, or a first piece and what comes after it. -/
@[elab_as_elim]
theorem split_induction {motive : List α → Prop} (last : ∀ p, a ∉ p → motive p)
    (piece : ∀ p r, a ∉ p → motive r → motive (p ++ a :: r)) (l : List α) : motive l := by
  induction hn : l.length using Nat.strongRecOn generalizing l with
  | _ n ih =>
    by_cases h : a ∈ l
    · obtain ⟨p, r, rfl, hp⟩ := List.eq_append_cons_of_mem h
      exact piece p r hp (ih r.length (by simp at hn; omega) r rfl)
    · exact last l h

variable [BEq α] [LawfulBEq α]

theorem not_mem_of_mem_splitOn {l p : List α} (h : p ∈ l.splitOn a) : a ∉ p := by
  induction l using split_induction (a := a) with
  | last q hq =>
    rw [List.splitOn_eq_singleton hq] at h
    exact List.mem_singleton.1 h ▸ hq
  | piece q r hq ih =>
    rw [List.splitOn_append_cons_self_of_not_mem hq] at h
    rcases List.mem_cons.1 h with rfl | h
    · exact hq
    · exact ih h

/-- Pieces that end with the separator are split off one by one. -/
theorem splitOn_flatMap_append {ps : List (List α)} (h : ∀ p ∈ ps, a ∉ p) (l : List α) :
    (ps.flatMap (· ++ [a]) ++ l).splitOn a = ps ++ l.splitOn a := by
  induction ps with
  | nil => rfl
  | cons p ps ih =>
    rw [List.forall_mem_cons] at h
    rw [List.flatMap_cons, List.append_assoc, List.append_assoc, List.singleton_append,
      List.splitOn_append_cons_self_of_not_mem h.1, ih h.2, List.cons_append]

end StoreLog
