-- SUMMARY: Finite sets as sorted lists.
import StoreLog.Sorted.Basic

/-!
# Sorted sets

A set as the strictly increasing list of its elements, so that two sets with the
same elements are equal.
-/

namespace StoreLog

structure SortedSet (α : Type) [LT α] where
  toList : List α
  sorted : toList.Pairwise (· < ·) := by simp

namespace SortedSet

variable {α : Type} [LT α]

theorem ext_toList {s t : SortedSet α} (h : s.toList = t.toList) : s = t := by
  cases s; cases t; cases h; rfl

def empty : SortedSet α where
  toList := []

instance : EmptyCollection (SortedSet α) := ⟨empty⟩

instance : Membership α (SortedSet α) := ⟨fun s a => a ∈ s.toList⟩

theorem mem_toList {a : α} {s : SortedSet α} : a ∈ s.toList ↔ a ∈ s := Iff.rfl

@[simp] theorem toList_empty : (∅ : SortedSet α).toList = [] := rfl

@[simp] theorem not_mem_empty (a : α) : ¬a ∈ (∅ : SortedSet α) := List.not_mem_nil

def size (s : SortedSet α) : Nat :=
  s.toList.length

/-! ## Insertion -/

variable [DecidableLT α] [DecidableEq α]

def insertList (a : α) : List α → List α
  | [] => [a]
  | b :: l => if a < b then a :: b :: l else if a = b then b :: l else b :: insertList a l

omit [DecidableLT α] [DecidableEq α] in
theorem mem_insertList [DecidableLT α] [DecidableEq α] {a x : α} {l : List α} :
    x ∈ insertList a l ↔ x = a ∨ x ∈ l := by
  induction l with
  | nil => simp [insertList]
  | cons b l ih => grind [insertList]

variable [Std.Trichotomous (α := α) (· < ·)]
  [Trans (α := α) (β := α) (γ := α) (· < ·) (· < ·) (· < ·)]

theorem insertList_sorted {a : α} {l : List α} (h : l.Pairwise (· < ·)) :
    (insertList a l).Pairwise (· < ·) := by
  induction l with
  | nil => simp [insertList]
  | cons b l ih =>
    obtain ⟨hb, hl⟩ := List.pairwise_cons.1 h
    simp only [insertList]
    split
    · next hab =>
      refine List.pairwise_cons.2 ⟨fun x hx => ?_, h⟩
      rcases List.mem_cons.1 hx with rfl | hx
      · exact hab
      · exact Std.lt_trans hab (hb x hx)
    · next hab =>
      split
      · exact h
      · next hne =>
        have hba : b < a := by
          rcases Std.lt_trichotomy a b with h | h | h
          · exact absurd h hab
          · exact absurd h hne
          · exact h
        refine List.pairwise_cons.2 ⟨fun x hx => ?_, ih hl⟩
        rcases mem_insertList.1 hx with rfl | hx
        · exact hba
        · exact hb x hx

def insert (a : α) (s : SortedSet α) : SortedSet α :=
  ⟨insertList a s.toList, insertList_sorted s.sorted⟩

@[simp] theorem mem_insert {a x : α} {s : SortedSet α} : x ∈ s.insert a ↔ x = a ∨ x ∈ s :=
  mem_insertList

/-- Add all elements of a list. -/
def insertAll (s : SortedSet α) (l : List α) : SortedSet α :=
  l.foldl (fun s a => s.insert a) s

@[simp] theorem insertAll_nil (s : SortedSet α) : s.insertAll [] = s := rfl

@[simp] theorem insertAll_cons (s : SortedSet α) (a : α) (l : List α) :
    s.insertAll (a :: l) = (s.insert a).insertAll l := rfl

theorem insertAll_append (s : SortedSet α) (l m : List α) :
    s.insertAll (l ++ m) = (s.insertAll l).insertAll m := by
  simp [insertAll]

@[simp] theorem mem_insertAll {x : α} {s : SortedSet α} {l : List α} :
    x ∈ s.insertAll l ↔ x ∈ s ∨ x ∈ l := by
  induction l generalizing s with
  | nil => simp
  | cons a l ih => simp [ih, or_assoc, or_left_comm]

def ofList (l : List α) : SortedSet α :=
  insertAll ∅ l

@[simp] theorem mem_ofList {x : α} {l : List α} : x ∈ ofList l ↔ x ∈ l := by
  simp [ofList]

/-! ## Extensionality -/

omit [DecidableLT α] [DecidableEq α] [Std.Trichotomous (α := α) (· < ·)] in
theorem ext [Std.Irrefl (α := α) (· < ·)] {s t : SortedSet α} (h : ∀ x, x ∈ s ↔ x ∈ t) : s = t :=
  ext_toList (eq_of_mem_iff_of_sorted id s.sorted t.sorted h)

end SortedSet

end StoreLog
