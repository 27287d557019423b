-- SUMMARY: Finite maps as sorted lists of entries.
import StoreLog.Sorted.Basic

/-!
# Sorted maps

A finite map as the list of its entries in strictly increasing order of their
keys, so that two maps that answer every look-up alike are equal.
-/

namespace StoreLog

structure SortedMap (κ ν : Type) [LT κ] where
  entries : List (κ × ν)
  sorted : entries.Pairwise (·.1 < ·.1) := by simp

namespace SortedMap

variable {κ ν : Type} [LT κ]

theorem ext_entries {m n : SortedMap κ ν} (h : m.entries = n.entries) : m = n := by
  cases m; cases n; cases h; rfl

def empty : SortedMap κ ν where
  entries := []

instance : EmptyCollection (SortedMap κ ν) := ⟨empty⟩

/-- Keep the entries whose keys satisfy a test. -/
def filterKeys (p : κ → Bool) (m : SortedMap κ ν) : SortedMap κ ν :=
  ⟨m.entries.filter (p ·.1), m.sorted.filter _⟩

variable [DecidableEq κ]

def getList (k : κ) : List (κ × ν) → Option ν
  | [] => none
  | (k', v) :: l => if k = k' then some v else getList k l

def get? (m : SortedMap κ ν) (k : κ) : Option ν :=
  getList k m.entries

@[simp] theorem get?_empty (k : κ) : (∅ : SortedMap κ ν).get? k = none := rfl

omit [LT κ] in
theorem mem_of_getList {k : κ} {v : ν} {l : List (κ × ν)} (h : getList k l = some v) :
    (k, v) ∈ l := by
  induction l with
  | nil => simp [getList] at h
  | cons e l ih => grind [getList]

theorem getList_eq_some_iff [Std.Irrefl (α := κ) (· < ·)] {k : κ} {v : ν} {l : List (κ × ν)}
    (h : l.Pairwise (·.1 < ·.1)) : getList k l = some v ↔ (k, v) ∈ l := by
  refine ⟨mem_of_getList, fun hm => ?_⟩
  induction l with
  | nil => simp at hm
  | cons e l ih =>
    obtain ⟨he, hl⟩ := List.pairwise_cons.1 h
    simp only [getList]
    rcases List.mem_cons.1 hm with rfl | hm
    · simp
    · have hlt := he _ hm
      rw [if_neg]
      · exact ih hl hm
      · rintro rfl
        exact Std.lt_irrefl hlt

theorem get?_eq_some_iff [Std.Irrefl (α := κ) (· < ·)] {m : SortedMap κ ν} {k : κ} {v : ν} :
    m.get? k = some v ↔ (k, v) ∈ m.entries :=
  getList_eq_some_iff m.sorted

omit [LT κ] in
theorem getList_filter {p : κ → Bool} {k : κ} {l : List (κ × ν)} :
    getList k (l.filter (p ·.1)) = if p k then getList k l else none := by
  induction l with
  | nil => simp [getList]
  | cons e l ih => grind [getList]

@[simp] theorem get?_filterKeys {p : κ → Bool} {m : SortedMap κ ν} {k : κ} :
    (m.filterKeys p).get? k = if p k then m.get? k else none :=
  getList_filter

/-! ## Insertion -/

variable [DecidableLT κ]

def insertList (k : κ) (v : ν) : List (κ × ν) → List (κ × ν)
  | [] => [(k, v)]
  | (k', v') :: l =>
    if k < k' then (k, v) :: (k', v') :: l
    else if k = k' then (k, v) :: l
    else (k', v') :: insertList k v l

omit [DecidableEq κ] [DecidableLT κ] in
theorem mem_insertList [DecidableEq κ] [DecidableLT κ] {k : κ} {v : ν} {e : κ × ν}
    {l : List (κ × ν)} (h : e ∈ insertList k v l) : e = (k, v) ∨ e ∈ l := by
  induction l with
  | nil => simpa [insertList] using h
  | cons e' l ih => grind [insertList]

variable [Std.Trichotomous (α := κ) (· < ·)]
  [Trans (α := κ) (β := κ) (γ := κ) (· < ·) (· < ·) (· < ·)]

theorem insertList_sorted {k : κ} {v : ν} {l : List (κ × ν)} (h : l.Pairwise (·.1 < ·.1)) :
    (insertList k v l).Pairwise (·.1 < ·.1) := by
  induction l with
  | nil => simp [insertList]
  | cons e l ih =>
    obtain ⟨he, hl⟩ := List.pairwise_cons.1 h
    simp only [insertList]
    split
    · next hlt =>
      refine List.pairwise_cons.2 ⟨fun x hx => ?_, h⟩
      rcases List.mem_cons.1 hx with rfl | hx
      · exact hlt
      · exact Std.lt_trans hlt (he x hx)
    · next hlt =>
      split
      · next heq =>
        subst heq
        exact List.pairwise_cons.2 ⟨he, hl⟩
      · next hne =>
        have hgt : e.1 < k := by
          rcases Std.lt_trichotomy k e.1 with h | h | h
          · exact absurd h hlt
          · exact absurd h hne
          · exact h
        refine List.pairwise_cons.2 ⟨fun x hx => ?_, ih hl⟩
        rcases mem_insertList hx with rfl | hx
        · exact hgt
        · exact he x hx

def insert (m : SortedMap κ ν) (k : κ) (v : ν) : SortedMap κ ν :=
  ⟨insertList k v m.entries, insertList_sorted m.sorted⟩

omit [Std.Trichotomous (α := κ) (· < ·)]
  [Trans (α := κ) (β := κ) (γ := κ) (· < ·) (· < ·) (· < ·)] in
theorem getList_insertList [Std.Irrefl (α := κ) (· < ·)] {k x : κ} {v : ν} {l : List (κ × ν)}
    (h : l.Pairwise (·.1 < ·.1)) :
    getList x (insertList k v l) = if x = k then some v else getList x l := by
  induction l with
  | nil => simp [insertList, getList]
  | cons e l ih =>
    obtain ⟨he, hl⟩ := List.pairwise_cons.1 h
    simp only [insertList]
    split
    · simp [getList]
    · split
      · next heq =>
        subst heq
        simp only [getList]
        grind
      · next hne =>
        simp only [getList, ih hl]
        grind

theorem get?_insert [Std.Irrefl (α := κ) (· < ·)] {m : SortedMap κ ν} {k x : κ} {v : ν} :
    (m.insert k v).get? x = if x = k then some v else m.get? x :=
  getList_insertList m.sorted

@[simp] theorem get?_insert_self [Std.Irrefl (α := κ) (· < ·)] {m : SortedMap κ ν} {k : κ}
    {v : ν} : (m.insert k v).get? k = some v := by
  simp [get?_insert]

/-! ## Extensionality -/

omit [DecidableLT κ] [Std.Trichotomous (α := κ) (· < ·)] in
/-- Two maps that answer every look-up alike are equal. -/
theorem ext [Std.Irrefl (α := κ) (· < ·)] {m n : SortedMap κ ν}
    (h : ∀ k, m.get? k = n.get? k) : m = n := by
  refine ext_entries (eq_of_mem_iff_of_sorted (·.1) m.sorted n.sorted fun ⟨k, v⟩ => ?_)
  rw [← get?_eq_some_iff, ← get?_eq_some_iff, h]

end SortedMap

end StoreLog
