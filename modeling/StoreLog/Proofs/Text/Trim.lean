-- SUMMARY: Trimming blanks off the ends of a text.
import Mathlib.Data.List.DropRight
import StoreLog.Text.Basic

/-!
# Trimming

A trimmed text is a part of the text, and trimming it again changes nothing. What is
trimmed off are the blanks at both ends.
-/

namespace StoreLog.Text

theorem trim_infix (s : Text) : trim s <:+: s :=
  (List.rdropWhile_prefix isBlank _).isInfix.trans (List.dropWhile_suffix isBlank).isInfix

/-- What begins a text without a blank at its front has none there either. -/
theorem dropWhile_isBlank_of_prefix {s t : Text} (h : s <+: t)
    (ht : t.dropWhile isBlank = t) : s.dropWhile isBlank = s := by
  cases s with
  | nil => rfl
  | cons c s =>
    obtain ⟨r, rfl⟩ := h
    have hc : isBlank c = false := by
      rw [Bool.eq_false_iff]
      intro hb
      rw [List.cons_append, List.dropWhile_cons_of_pos hb] at ht
      have hle := (List.dropWhile_suffix (l := s ++ r) isBlank).length_le
      rw [ht, List.length_cons] at hle
      omega
    rw [List.dropWhile_cons_of_neg (by simp [hc])]

@[simp] theorem trim_trim (s : Text) : trim (trim s) = trim s := by
  have h : (trim s).dropWhile isBlank = trim s :=
    dropWhile_isBlank_of_prefix (List.rdropWhile_prefix isBlank _)
      (List.dropWhile_idempotent isBlank s)
  have ht : trim (trim s) = ((trim s).dropWhile isBlank).rdropWhile isBlank := rfl
  rw [ht, h]
  exact List.rdropWhile_idempotent isBlank _

/-! ## Blanks at the ends -/

variable {c : Char}

theorem trim_cons_of_isBlank (hc : isBlank c = true) (s : Text) : trim (c :: s) = trim s := by
  rw [trim, trimStart, List.dropWhile_cons_of_pos hc, trim, trimStart]

theorem trim_concat_of_isBlank (hc : isBlank c = true) (s : Text) : trim (s ++ [c]) = trim s := by
  have hs : trim (s ++ [c]) = ((s ++ [c]).dropWhile isBlank).rdropWhile isBlank := rfl
  rw [hs, List.dropWhile_append]
  split
  · next h =>
    have hnil : s.dropWhile isBlank = [] := List.isEmpty_iff.1 h
    simp [trim, trimStart, trimEnd, hnil, hc]
  · exact List.rdropWhile_concat_pos isBlank _ c hc

/-- The blanks at the front, what is left after trimming, and the blanks at the back. -/
theorem exists_takeWhile_append_trim_append (s : Text) :
    ∃ b, (∀ c ∈ b, isBlank c = true) ∧ s = s.takeWhile isBlank ++ trim s ++ b := by
  refine ⟨(trimStart s).rtakeWhile isBlank, fun c hc => List.mem_rtakeWhile_imp hc, ?_⟩
  have htrim : trim s ++ (trimStart s).rtakeWhile isBlank = trimStart s :=
    List.rdropWhile_append_rtakeWhile
  rw [List.append_assoc, htrim]
  exact List.takeWhile_append_dropWhile.symm

theorem trim_eq_nil_iff {s : Text} : trim s = [] ↔ ∀ c ∈ s, isBlank c = true := by
  constructor
  · intro h c hc
    obtain ⟨b, hb, hs⟩ := exists_takeWhile_append_trim_append s
    rw [hs, h, List.append_nil, List.mem_append] at hc
    exact hc.elim List.mem_takeWhile_imp (hb c)
  · intro h
    have hstart : trimStart s = [] := List.dropWhile_eq_nil_iff.2 h
    rw [trim, hstart]
    rfl

/-- A text is trimmed exactly if it neither begins nor ends with a blank. -/
theorem trim_eq_self_iff {s : Text} :
    trim s = s ↔ (∀ c ∈ s.head?, isBlank c = false) ∧ ∀ c ∈ s.getLast?, isBlank c = false := by
  have htrim : trim s = (s.dropWhile isBlank).rdropWhile isBlank := rfl
  have hfront : s.dropWhile isBlank = s ↔ ∀ c ∈ s.head?, isBlank c = false := by
    cases s with
    | nil => simp
    | cons c s => simp [List.dropWhile_eq_self_iff]
  have hback : s.rdropWhile isBlank = s ↔ ∀ c ∈ s.getLast?, isBlank c = false := by
    rcases List.eq_nil_or_concat s with rfl | ⟨t, c, rfl⟩
    · simp
    · simp [List.rdropWhile_eq_self_iff]
  rw [htrim, ← hfront, ← hback]
  constructor
  · intro h
    -- A text that loses nothing at either end loses nothing at its front.
    have hd : s.dropWhile isBlank = s := by
      have hsuffix : s.dropWhile isBlank <:+ s := List.dropWhile_suffix isBlank
      refine hsuffix.eq_of_length_le ?_
      conv => lhs; rw [← h]
      exact (List.rdropWhile_prefix isBlank _).length_le
    rw [hd] at h
    exact ⟨hd, h⟩
  · rintro ⟨hd, hr⟩
    rw [hd, hr]

end StoreLog.Text
