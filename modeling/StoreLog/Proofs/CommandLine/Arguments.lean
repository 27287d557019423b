-- SUMMARY: Which command lines are accepted, and what one more flag changes.
import StoreLog.CommandLine.Arguments

/-!
# Accepted arguments

Items are taken one by one, and each adds to what is selected. So what holds at first and is
kept by every addition holds of all that is accepted.
-/

namespace StoreLog.CommandLine

namespace Selection

def addFlag (s : Selection) (c : Choice) : Selection :=
  { s with flags := c :: s.flags }

theorem has_iff {s : Selection} {c : Choice} : s.has c = true ↔ c ∈ s.flags := by
  simp [has]

end Selection

namespace Usage

variable {u : Usage} {s s' : Selection} {is : List Item} {c : Choice} {arg : Bytes}
  {args : List Bytes}

theorem select_induct {P : Selection → Prop} (h : u.select s is = .accepted s') (hs : P s)
    (flag : ∀ s c, P s → P { s with flags := s.flags ++ [c] })
    (setting : ∀ s c v, P s → P { s with settings := s.settings ++ [(c, v)] })
    (operand : ∀ s v, u.allowsOperand s = true → P s →
      P { s with operands := s.operands ++ [v] }) :
    P s' ∧ s'.operands ≠ [] := by
  induction is generalizing s with
  | nil =>
    rw [select] at h
    split at h
    · cases h
    · next hne =>
      cases h
      exact ⟨hs, by simpa using hne⟩
  | cons i is ih =>
    cases i with
    | flag c =>
      rw [select] at h
      split at h
      · cases h
      · exact ih h (flag s c hs)
    | setting c v =>
      rw [select] at h
      split at h
      · cases h
      · exact ih h (setting s c v hs)
    | operand v =>
      rw [select] at h
      split at h
      · cases h
      · next hrefused =>
        simp only [Bool.or_eq_true, not_or, Bool.not_eq_true', Bool.not_eq_false] at hrefused
        exact ih h (operand s v hrefused.2 hs)
    | version => cases h
    | refused => cases h

/-- What is accepted has an operand, and no more of them than there may be. -/
theorem operands_of_read (h : u.read args = .accepted s) :
    (∀ n, u.maxOperands = some n → s.operands.length ≤ n) ∧ s.operands ≠ [] := by
  refine select_induct (P := fun s => ∀ n, u.maxOperands = some n → s.operands.length ≤ n) h
    (fun n _ => Nat.zero_le n) (fun _ _ hs => hs) (fun _ _ _ hs => hs) fun s v hallows hs n hn => ?_
  simp only [allowsOperand, hn, decide_eq_true_eq] at hallows
  rw [List.length_append, List.length_singleton]
  exact hallows

theorem flags_subset_of_select (h : u.select s is = .accepted s') : s.flags ⊆ s'.flags :=
  (select_induct (P := fun r => s.flags ⊆ r.flags) h (List.Subset.refl _)
    (fun _ _ hs => List.subset_append_of_subset_left _ hs) (fun _ _ _ hs => hs)
    fun _ _ _ hs => hs).1

/-- One more flag at first is one more flag in the end, unless it is among the items as well. -/
theorem select_addFlag (h : u.select s is = .accepted s') (hc : s'.has c = false) :
    u.select (s.addFlag c) is = .accepted (s'.addFlag c) := by
  induction is generalizing s with
  | nil =>
    rw [select] at h ⊢
    split at h
    · cases h
    · next hne =>
      cases h
      exact if_neg hne
  | cons i is ih =>
    cases i with
    | flag d =>
      rw [select] at h ⊢
      split at h
      · cases h
      · next hd =>
        have hmem : d ∈ s'.flags := flags_subset_of_select h (by simp)
        have hne : d ≠ c := by
          rintro rfl
          rw [Selection.has_iff.2 hmem] at hc
          cases hc
        have hnot : ¬(s.addFlag c).has d = true := by
          rw [Selection.has_iff] at hd ⊢
          simp [Selection.addFlag, hne, hd]
        rw [if_neg hnot]
        exact ih h
    | setting d v =>
      rw [select] at h ⊢
      split at h
      · cases h
      · next hnot =>
        have hnot' : ¬(v.isEmpty || ((s.addFlag c).value? d).isSome) = true := hnot
        rw [if_neg hnot']
        exact ih h
    | operand v =>
      rw [select] at h ⊢
      split at h
      · cases h
      · next hnot =>
        have hnot' : ¬(v.isEmpty || !u.allowsOperand (s.addFlag c)) = true := hnot
        rw [if_neg hnot']
        exact ih h
    | version => cases h
    | refused => cases h

/-- A flag that is not given yet can be given before all else. -/
theorem read_flag_cons (harg : shape u.choices arg = .items [.flag c])
    (h : u.read args = .accepted s) (hc : s.has c = false) :
    u.read (arg :: args) = .accepted (s.addFlag c) := by
  have hfirst : u.read (arg :: args) =
      u.select (Selection.addFlag {} c) (items u.choices none args) := by
    rw [read, items, harg]
    rfl
  rw [hfirst]
  exact select_addFlag h hc

end Usage

end StoreLog.CommandLine
