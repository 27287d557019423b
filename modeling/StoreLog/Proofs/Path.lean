-- SUMMARY: Paths cut after their last slash, and what is put at their end.
import Mathlib.Data.List.TakeWhile
import StoreLog.Tree.Resolve

/-!
# Paths and their last names

A path cut after its last slash: `around` is what leads to a directory, `leaf` is
the name in it. What is put at the end of a path goes to its leaf.
-/

namespace StoreLog.Path

/-- The path up to its last slash. -/
def around (p : Path) : Path :=
  (p.reverse.dropWhile (· != slash)).reverse

/-- What comes after the last slash. -/
def leaf (p : Path) : Bytes :=
  (p.reverse.takeWhile (· != slash)).reverse

theorem around_append_leaf (p : Path) : around p ++ leaf p = p := by
  rw [around, leaf, ← List.reverse_append, List.takeWhile_append_dropWhile, List.reverse_reverse]

theorem slash_not_mem_leaf (p : Path) : slash ∉ leaf p := by
  intro h
  have := List.mem_takeWhile_imp (List.mem_reverse.1 h)
  simp at this

theorem around_eq_nil_or (p : Path) : around p = [] ∨ ∃ q, around p = q ++ [slash] := by
  unfold around
  cases h : p.reverse.dropWhile (· != slash) with
  | nil => exact .inl rfl
  | cons b r =>
    have hb : b = slash := by
      have := List.head_dropWhile_not (l := p.reverse) (· != slash) (by simp [h])
      simpa [h] using this
    exact .inr ⟨r.reverse, by simp [hb]⟩

/-! ## Endings -/

variable {p e : Path}

theorem around_append (he : slash ∉ e) : around (p ++ e) = around p := by
  have h : ∀ b ∈ e.reverse, (b != slash) = true := by
    intro b hb
    simp only [bne_iff_ne, ne_eq]
    rintro rfl
    exact he (List.mem_reverse.1 hb)
  rw [around, List.reverse_append, List.dropWhile_append_of_pos h, around]

theorem leaf_append (he : slash ∉ e) : leaf (p ++ e) = leaf p ++ e := by
  have h : ∀ b ∈ e.reverse, (b != slash) = true := by
    intro b hb
    simp only [bne_iff_ne, ne_eq]
    rintro rfl
    exact he (List.mem_reverse.1 hb)
  rw [leaf, List.reverse_append, List.takeWhile_append_of_pos h, List.reverse_append,
    List.reverse_reverse, leaf]

theorem components_eq (p : Path) :
    components p = components (around p) ++ [leaf p].filter (!·.isEmpty) := by
  have hleaf := List.splitOn_eq_singleton (slash_not_mem_leaf p)
  conv => lhs; rw [← around_append_leaf p]
  rcases around_eq_nil_or p with h | ⟨q, h⟩
  · simp [h, components, hleaf]
  · rw [h, List.append_assoc, List.singleton_append, components, components,
      List.splitOn_append_cons_self, List.splitOn_append_cons_self, hleaf]
    simp

theorem components_ne_nil {p : Path} (h : leaf p ≠ []) : components p ≠ [] := by
  rw [components_eq, List.filter_cons_of_pos (by simpa using h)]
  simp

theorem endsWithSlash_iff : endsWithSlash p = true ↔ p ≠ [] ∧ leaf p = [] := by
  rcases List.eq_nil_or_concat p with rfl | ⟨q, b, rfl⟩
  · simp [endsWithSlash]
  · by_cases hb : b = slash <;> simp [endsWithSlash, leaf, hb]

theorem steps_ne_nil (aim : Aim) (hp : p ≠ []) : steps aim p ≠ [] := by
  unfold steps
  split
  · simp
  · next h => exact components_ne_nil fun hleaf => h (endsWithSlash_iff.2 ⟨hp, hleaf⟩)

theorem startOf_append (he : slash ∉ e) (dir : Loc) :
    Tree.startOf (p ++ e) dir = Tree.startOf p dir := by
  have h : (p ++ e).isAbsolute = p.isAbsolute := by
    cases p with
    | nil =>
      cases e with
      | nil => rfl
      | cons b e =>
        have hb : b ≠ slash := fun h => he (by simp [h])
        simp [isAbsolute, hb]
    | cons b p => rfl
  rw [Tree.startOf, Tree.startOf, h]

/-! ## Extensions -/

theorem core_eq_self (h : leaf p ≠ []) (hdot : leaf p ≠ [dot]) : core p = p := by
  have hp : leaf p = (p.reverse.takeWhile (· != slash)).reverse := rfl
  rw [core]
  suffices dropTail p.reverse = p.reverse by rw [this, List.reverse_reverse]
  generalize p.reverse = r at hp
  rw [hp] at h hdot
  fun_cases dropTail r with
  | case1 => rfl
  | case2 => simp at h
  | case3 => simp_all
  | case4 => simp at h
  | case5 => simp_all [slash, dot]
  | case6 => simp_all

/-- The extension ends the last name. -/
theorem extension?_suffix {x : Bytes} (h : leaf p ≠ []) (hdot : leaf p ≠ [dot])
    (hx : extension? p = some x) : x <:+ leaf p := by
  have hl : lastComponent p = leaf p := by rw [lastComponent, core_eq_self h hdot, leaf]
  unfold extension? at hx
  rw [hl] at hx
  simp only at hx
  split at hx
  · cases hx
  · split at hx
    · cases hx
    · rw [← Option.some.inj hx]
      simpa using (List.takeWhile_prefix (l := (leaf p).reverse) (· != dot)).reverse

end StoreLog.Path
