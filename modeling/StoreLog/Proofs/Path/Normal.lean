-- SUMMARY: Paths whose components all name files, and their extensions.
import StoreLog.Proofs.Path
import StoreLog.Proofs.Text.Split

/-!
# Normal paths

A relative path that names a place by its components alone: without empty components
and without dots that stay or go up. What the extension of such a path is can be said of
its last name.
-/

namespace StoreLog.Path

variable {p d x : Path} {c : Bytes}

/-- A relative path none of whose components is empty, a dot or two dots. -/
def IsNormal (p : Path) : Prop :=
  p = [] ∨ ∀ c ∈ p.splitOn slash, isFileName c = true

instance (p : Path) : Decidable p.IsNormal :=
  inferInstanceAs (Decidable (p = [] ∨ _))

theorem isFileName_iff : isFileName c = true ↔ c ≠ [] ∧ c ≠ [dot] ∧ c ≠ [dot, dot] := by
  simp [isFileName, and_assoc]

/-! ## The last component -/

/-- What can stand before the last name of a path: nothing, or what ends in a slash. -/
def IsFront (d : Path) : Prop :=
  d = [] ∨ d.getLast? = some slash

theorem isFront_around (p : Path) : IsFront (around p) := by
  rcases around_eq_nil_or p with h | ⟨q, h⟩
  · exact .inl h
  · exact .inr (by simp [h])

theorem IsFront.around_append (hd : IsFront d) (hx : slash ∉ x) : around (d ++ x) = d := by
  rw [Path.around_append hx]
  rcases hd with rfl | hd
  · rfl
  · obtain ⟨q, rfl⟩ := List.getLast?_eq_some_iff.1 hd
    simp [around]

theorem IsFront.leaf_append (hd : IsFront d) (hx : slash ∉ x) : leaf (d ++ x) = x := by
  rw [Path.leaf_append hx]
  rcases hd with rfl | hd
  · rfl
  · obtain ⟨q, rfl⟩ := List.getLast?_eq_some_iff.1 hd
    simp [leaf]

theorem around_around_append (hx : slash ∉ x) : around (around p ++ x) = around p :=
  (isFront_around p).around_append hx

theorem leaf_around_append (hx : slash ∉ x) : leaf (around p ++ x) = x :=
  (isFront_around p).leaf_append hx

/-- A name in the place of the last one is one component in the place of the last one. -/
theorem splitOn_around_append (p : Path) (hx : slash ∉ x) :
    (around p ++ x).splitOn slash = (p.splitOn slash).dropLast ++ [x] := by
  have hleaf := List.splitOn_eq_singleton (slash_not_mem_leaf p)
  conv => rhs; rw [← around_append_leaf p]
  rcases around_eq_nil_or p with h | ⟨q, h⟩
  · simp [h, hleaf, List.splitOn_eq_singleton hx]
  · rw [h, List.append_assoc, List.append_assoc, List.singleton_append, List.singleton_append,
      List.splitOn_append_cons_self, List.splitOn_append_cons_self, hleaf,
      List.splitOn_eq_singleton hx, List.dropLast_concat]

theorem leaf_mem_splitOn (p : Path) : leaf p ∈ p.splitOn slash := by
  have h := splitOn_around_append p (slash_not_mem_leaf p)
  rw [around_append_leaf] at h
  rw [h]
  exact List.mem_append_right _ (List.mem_singleton_self _)

/-! ## Normal paths -/

theorem IsNormal.isFileName_of_mem (h : p.IsNormal) (hc : c ∈ p.components) :
    isFileName c = true := by
  rw [components, List.mem_filter] at hc
  rcases h with rfl | h
  · simp at hc
  · exact h c hc.1

theorem IsNormal.isFileName_leaf (h : p.IsNormal) (hp : p ≠ []) : isFileName (leaf p) = true :=
  h.resolve_left hp (leaf p) (leaf_mem_splitOn p)

theorem IsNormal.isAbsolute_eq_false (h : p.IsNormal) : p.isAbsolute = false := by
  rw [Bool.eq_false_iff]
  intro habs
  cases p with
  | nil => cases habs
  | cons b p =>
    obtain rfl : b = slash := by simpa [isAbsolute] using habs
    have hempty : [] ∈ (slash :: p).splitOn slash := by
      have hsplit := List.splitOn_append_cons_self (a := slash) [] p
      rw [List.nil_append] at hsplit
      rw [hsplit]
      simp
    exact absurd (h.resolve_left (List.cons_ne_nil _ _) [] hempty) (by decide)

theorem IsNormal.steps_eq_components (h : p.IsNormal) (aim : Aim) :
    p.steps aim = p.components := by
  have hs : p.endsWithSlash = false := by
    rw [Bool.eq_false_iff, ne_eq, endsWithSlash_iff]
    rintro ⟨hp, hleaf⟩
    have hname := h.isFileName_leaf hp
    rw [hleaf] at hname
    exact absurd hname (by decide)
  rw [steps, hs, if_neg Bool.false_ne_true]

/-- A normal path stays normal with another name in the place of its last one. -/
theorem IsNormal.around_append (h : p.IsNormal) (hx : slash ∉ x) (hname : isFileName x = true) :
    (around p ++ x).IsNormal := by
  refine .inr fun c hc => ?_
  rw [splitOn_around_append p hx, List.mem_append, List.mem_singleton] at hc
  rcases h with rfl | h
  · simp at hc
    exact hc ▸ hname
  · rcases hc with hc | rfl
    · exact h c (List.dropLast_subset _ hc)
    · exact hname

/-! ## Extensions -/

theorem lastComponent_eq_leaf (h : isFileName (leaf p) = true) : lastComponent p = leaf p := by
  obtain ⟨hne, hdot, -⟩ := isFileName_iff.1 h
  rw [lastComponent, core_eq_self hne hdot, leaf]

/-- Cut at its last dot, a name shows its extension, if something stands before the dot. -/
theorem extension?_of_leaf_eq {n : Bytes} (h : isFileName (leaf p) = true)
    (hcut : leaf p = n ++ dot :: x) (hx : dot ∉ x) :
    extension? p = if n = [] then none else some x := by
  have hreverse : (leaf p).reverse = x.reverse ++ dot :: n.reverse := by simp [hcut]
  have hpos : ∀ b ∈ x.reverse, (b != dot) = true := by
    intro b hb
    have hbd : b ≠ dot := fun heq => hx (heq ▸ List.mem_reverse.1 hb)
    simpa using hbd
  have hdrop : (leaf p).reverse.dropWhile (· != dot) = dot :: n.reverse := by
    rw [hreverse, List.dropWhile_append_of_pos hpos]
    simp
  have htake : (leaf p).reverse.takeWhile (· != dot) = x.reverse := by
    rw [hreverse, List.takeWhile_append_of_pos hpos]
    simp
  rw [extension?, lastComponent_eq_leaf h]
  simp only [hdrop, htake, h, List.isEmpty_reverse, List.isEmpty_iff, Bool.not_true, Bool.or_false,
    List.reverse_reverse]

theorem extension?_eq_some_iff (h : isFileName (leaf p) = true) :
    extension? p = some x ↔ ∃ n, n ≠ [] ∧ leaf p = n ++ dot :: x ∧ dot ∉ x := by
  constructor
  · intro hx
    by_cases hmem : dot ∈ leaf p
    · obtain ⟨y, m, hy, hdot⟩ := List.eq_append_cons_of_mem (List.mem_reverse.2 hmem)
      have hcut : leaf p = m.reverse ++ dot :: y.reverse := by
        rw [← List.reverse_reverse (leaf p), hy]
        simp
      have hdot' : dot ∉ y.reverse := by simpa using hdot
      rw [extension?_of_leaf_eq h hcut hdot'] at hx
      split at hx
      · cases hx
      · next hm =>
        obtain rfl := Option.some.inj hx
        exact ⟨m.reverse, hm, hcut, hdot'⟩
    · -- Without a dot, there is no extension.
      have hnil : (leaf p).reverse.dropWhile (· != dot) = [] := by
        rw [List.dropWhile_eq_nil_iff]
        intro b hb
        have hbd : b ≠ dot := fun heq => hmem (heq ▸ List.mem_reverse.1 hb)
        simpa using hbd
      rw [extension?, lastComponent_eq_leaf h] at hx
      simp [hnil] at hx
  · rintro ⟨n, hn, hcut, hdot⟩
    rw [extension?_of_leaf_eq h hcut hdot, if_neg hn]

theorem take_length_sub {q r : Bytes} (h : p = q ++ r) : p.take (p.length - r.length) = q := by
  rw [h]
  simp

/-- A path ends at its stem without the dot that ends its last name. Two dots have no stem, and
stay. -/
theorem endAtStem_of_leaf_eq {n : Bytes} (hn : n ≠ []) (h : leaf p = n ++ [dot]) :
    endAtStem p = around p ++ if n = [dot] then [dot, dot] else n := by
  have hne : leaf p ≠ [] := by simp [h]
  have hdot : leaf p ≠ [dot] := by simp [h, hn]
  have hcore : core p = p := core_eq_self hne hdot
  have hlast : lastComponent p = leaf p := by rw [lastComponent, hcore, leaf]
  have hp : p = around p ++ leaf p := (around_append_leaf p).symm
  rw [endAtStem, hlast, hcore]
  by_cases hdots : n = [dot]
  · have hname : isFileName (leaf p) = false := by
      rw [h, hdots]
      rfl
    rw [hname, if_neg Bool.false_ne_true, if_pos hdots]
    conv => lhs; rw [hp, h, hdots]
    rfl
  · have hname : isFileName (leaf p) = true := by
      refine isFileName_iff.2 ⟨hne, hdot, fun heq => hdots ?_⟩
      rw [h] at heq
      exact (List.append_inj' (heq : n ++ [dot] = [dot] ++ [dot]) rfl).1
    have hext : extension? p = some [] := (extension?_eq_some_iff hname).2 ⟨n, hn, h, by simp⟩
    have hp' : p = (around p ++ n) ++ [dot] := by rw [List.append_assoc, ← h, ← hp]
    rw [hname, if_pos rfl, hext, if_neg hdots]
    exact take_length_sub hp'

/-- What is left of a path without its extension. -/
theorem dropExtension_eq {n : Bytes} (h : isFileName (leaf p) = true) (hn : n ≠ [])
    (hcut : leaf p = n ++ dot :: x) (hx : dot ∉ x) :
    dropExtension p = around p ++ if n = [dot] then [dot, dot] else n := by
  have hslash : slash ∉ n ++ [dot] := by
    intro hs
    refine slash_not_mem_leaf p ?_
    rw [hcut, List.append_cons]
    exact List.mem_append_left _ hs
  have htake : p.take (p.length - x.length) = around p ++ (n ++ [dot]) := by
    refine take_length_sub ?_
    conv => lhs; rw [← around_append_leaf p, hcut]
    simp
  have hext : extension? p = some x := (extension?_eq_some_iff h).2 ⟨n, hn, hcut, hx⟩
  rw [dropExtension, hext]
  simp only [htake]
  rw [endAtStem_of_leaf_eq hn (leaf_around_append hslash), around_around_append hslash]

end StoreLog.Path
