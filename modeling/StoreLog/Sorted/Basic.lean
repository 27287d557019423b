-- SUMMARY: Lists in increasing order are told apart by their members.
/-!
# Sorted lists

A list in strictly increasing order of a key is determined by its elements.
-/

namespace StoreLog

theorem eq_of_mem_iff_of_sorted {α κ : Type} [LT κ] [Std.Irrefl (α := κ) (· < ·)]
    [Trans (α := κ) (β := κ) (γ := κ) (· < ·) (· < ·) (· < ·)] (key : α → κ) {l m : List α}
    (hl : l.Pairwise (key · < key ·)) (hm : m.Pairwise (key · < key ·))
    (h : ∀ x, x ∈ l ↔ x ∈ m) : l = m := by
  induction l generalizing m with
  | nil =>
    cases m with
    | nil => rfl
    | cons b m => exact absurd ((h b).2 (by simp)) (by simp)
  | cons a l ih =>
    cases m with
    | nil => exact absurd ((h a).1 (by simp)) (by simp)
    | cons b m =>
      obtain ⟨ha, hl'⟩ := List.pairwise_cons.1 hl
      obtain ⟨hb, hm'⟩ := List.pairwise_cons.1 hm
      have hab : a = b := by
        rcases List.mem_cons.1 ((h a).1 (by simp)) with rfl | ham
        · rfl
        · rcases List.mem_cons.1 ((h b).2 (by simp)) with rfl | hbl
          · rfl
          · exact absurd (Std.lt_trans (ha b hbl) (hb a ham)) Std.lt_irrefl
      subst hab
      congr 1
      refine ih hl' hm' fun x => ⟨fun hx => ?_, fun hx => ?_⟩
      · rcases List.mem_cons.1 ((h x).1 (List.mem_cons_of_mem _ hx)) with rfl | hx'
        · exact absurd (ha x hx) Std.lt_irrefl
        · exact hx'
      · rcases List.mem_cons.1 ((h x).2 (List.mem_cons_of_mem _ hx)) with rfl | hx'
        · exact absurd (hb x hx) Std.lt_irrefl
        · exact hx'

end StoreLog
