-- SUMMARY: When a path is that of an entry of a directory.
import StoreLog.Proofs.Path.Normal
import StoreLog.Proofs.Text.Utf8

/-!
# Entries of a directory

What a name leads to that is joined to the path of a directory: to an entry of that
directory, if the name is one component that neither stays nor goes up.
-/

namespace StoreLog.Path

variable {dir name p q : Path} {s : Text}

/-! ## Names that are texts -/

theorem slash_mem_ofText : slash ∈ ofText s ↔ '/' ∈ s :=
  Utf8.mem_encode_iff (c := '/') (by decide)

theorem isAbsolute_ofText : (ofText s).isAbsolute = true ↔ s.head? = some '/' := by
  cases s with
  | nil => decide
  | cons c s =>
    obtain ⟨b, r, hb⟩ := List.exists_cons_of_ne_nil (String.utf8EncodeChar_ne_nil (c := c))
    have hslash : b = slash ↔ c = '/' := by
      constructor
      · intro h
        have hmem : slash ∈ String.utf8EncodeChar c := by simp [hb, h]
        exact Char.toNat_inj.1 (Utf8.toNat_eq_of_mem_encodeChar hmem (by decide))
      · rintro rfl
        exact (List.cons.inj hb).1.symm
    simp [ofText, isAbsolute, hb, hslash]

theorem isFileName_ofText :
    isFileName (ofText s) = true ↔ s ≠ [] ∧ s ≠ ['.'] ∧ s ≠ ['.', '.'] := by
  have hdot : [dot] = Utf8.encode ['.'] := rfl
  have hdots : [dot, dot] = Utf8.encode ['.', '.'] := rfl
  rw [isFileName_iff, hdots, hdot]
  simp only [ofText, ne_eq, Utf8.encode_inj, Utf8.encode_eq_nil_iff]

/-! ## Joining -/

/-- What a directory's path is to the paths of its entries. -/
def front (dir : Path) : Path :=
  if dir.isEmpty || dir.getLast? == some slash then dir else dir ++ [slash]

theorem join_eq (h : name.isAbsolute = false) : dir.join name = front dir ++ name := by
  rw [join, h, if_neg Bool.false_ne_true, front]
  split <;> rfl

theorem front_of_ne_nil (h : dir ≠ []) :
    front dir = if dir.getLast? = some slash then dir else dir ++ [slash] := by
  simp [front, h]

theorem join_inj (hp : p.isAbsolute = false) (hq : q.isAbsolute = false) :
    dir.join p = dir.join q ↔ p = q := by
  rw [join_eq hp, join_eq hq]
  exact List.append_right_inj _

theorem isAbsolute_of_not_mem (h : slash ∉ name) : name.isAbsolute = false := by
  rw [Bool.eq_false_iff]
  intro habs
  exact h (List.mem_of_head? (eq_of_beq habs))

/-- The path is that of the directory with one component more, which is the name of an entry. -/
def IsEntryOf (p dir : Path) : Prop :=
  ∃ name, isFileName name = true ∧ slash ∉ name ∧ p = dir.join name

theorem isEntryOf_join_iff (h : name.isAbsolute = false) :
    (dir.join name).IsEntryOf dir ↔ isFileName name = true ∧ slash ∉ name := by
  constructor
  · rintro ⟨n, hn, hslash, heq⟩
    obtain rfl := (join_inj h (isAbsolute_of_not_mem hslash)).1 heq
    exact ⟨hn, hslash⟩
  · rintro ⟨hname, hslash⟩
    exact ⟨name, hname, hslash, rfl⟩

end StoreLog.Path
