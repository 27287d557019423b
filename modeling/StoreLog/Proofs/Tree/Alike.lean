-- SUMMARY: Trees that look alike where a path passes through.
import StoreLog.Proofs.Path.Normal
import StoreLog.Proofs.Tree.Writing

/-!
# Trees that look alike

A normal path in a tree without links passes only through the places above the one to
which it leads. So it leads to the same in another tree that looks alike at these places,
and what is created and written at it is the same there.
-/

namespace StoreLog.Tree

variable {S : Loc → Prop} {t u : Tree} {aim : Aim} {l m : Loc} {q : Path} {cs : List Name}

/-- Two trees that look alike at some places. -/
structure Alike (S : Loc → Prop) (t u : Tree) : Prop where
  workDir : u.workDir = t.workDir
  entryAt_eq : ∀ m, S m → u.entryAt m = t.entryAt m

/-- Where a normal path leads in a tree without links. -/
def locOf (t : Tree) (q : Path) : Loc :=
  q.components.reverse ++ t.workDir

/-- All places that a path passes through are of a kind. -/
def Covers (S : Loc → Prop) (t : Tree) (q : Path) : Prop :=
  ∀ m, m <:+ t.locOf q → S m

theorem Covers.locOf (h : Covers S t q) : S (t.locOf q) := h _ (List.suffix_refl _)

theorem locOf_congr (h : u.workDir = t.workDir) (q : Path) : u.locOf q = t.locOf q := by
  rw [Tree.locOf, Tree.locOf, h]

/-! ## Ways -/

theorem stride_eq_of_alike (hcs : ∀ c ∈ cs, Path.isFileName c = true) (h : Alike S t u)
    (hS : ∀ m, m <:+ cs.reverse ++ l → S m) : u.stride aim l cs = t.stride aim l cs := by
  induction cs generalizing l with
  | nil => rfl
  | cons c cs ih =>
    rw [List.forall_mem_cons] at hcs
    obtain ⟨hnil, hdot, hdots⟩ := Path.isFileName_iff.1 hcs.1
    have hway : (c :: cs).reverse ++ l = cs.reverse ++ (c :: l) := by simp
    rw [hway] at hS
    have hl : u.entryAt l = t.entryAt l :=
      h.entryAt_eq l (hS l ((List.suffix_cons c l).trans (List.suffix_append _ _)))
    have hcl : u.entryAt (c :: l) = t.entryAt (c :: l) :=
      h.entryAt_eq (c :: l) (hS _ (List.suffix_append _ _))
    simp only [stride, hl, hcl, hnil, hdot, hdots, or_self, if_false, ih hcs.2 hS]

theorem IsStride.loc_eq {p : Place} (h : t.IsStride aim (.place p) l cs) (ht : t.IsLinkFree)
    (hcs : ∀ c ∈ cs, Path.isFileName c = true) : p.loc = cs.reverse ++ l := by
  induction h with
  | here hhalt =>
    cases hhalt
    rfl
  | stay _ hc =>
    obtain ⟨hnil, hdot, -⟩ := Path.isFileName_iff.1 (List.forall_mem_cons.1 hcs).1
    exact absurd hc (not_or.2 ⟨hnil, hdot⟩)
  | up =>
    obtain ⟨-, -, hdots⟩ := Path.isFileName_iff.1 (List.forall_mem_cons.1 hcs).1
    exact absurd rfl hdots
  | down _ _ _ _ _ ih => simpa using ih (List.forall_mem_cons.1 hcs).2
  | vacant _ _ _ hhalt =>
    cases hhalt
    rfl
  | own _ _ he => exact absurd he (ht _ _)
  | link _ _ he => exact absurd he (ht _ _)

theorem walk_eq_of_stride_eq (ht : t.IsLinkFree) (links : Nat)
    (h : u.stride aim l cs = t.stride aim l cs) :
    u.walk aim links l cs = t.walk aim links l cs := by
  rw [walk, walk, h]
  cases hs : t.stride aim l cs with
  | error e => rfl
  | ok halt =>
    cases halt with
    | place p => rfl
    | link dir target rest => exact absurd hs (stride_ne_link ht)

/-! ## Paths -/

theorem startOf_of_isNormal (hq : q.IsNormal) (dir : Loc) : startOf q dir = dir := by
  rw [startOf, hq.isAbsolute_eq_false, if_neg Bool.false_ne_true]

theorem resolve_eq_of_alike (ht : t.IsLinkFree) (hq : q.IsNormal) (h : Alike S t u)
    (hS : Covers S t q) : u.resolve aim q = t.resolve aim q := by
  have hcs : ∀ c ∈ q.components, Path.isFileName c = true := fun c => hq.isFileName_of_mem
  rw [resolve, resolve, resolveSteps, resolveSteps, hq.steps_eq_components,
    startOf_of_isNormal hq, startOf_of_isNormal hq, h.workDir,
    walk_eq_of_stride_eq ht maxLinks (stride_eq_of_alike hcs h hS)]

/-- A normal path leads nowhere else. -/
theorem loc_of_resolve (ht : t.IsLinkFree) (hq : q.IsNormal) {p : Place}
    (h : t.resolve aim q = .ok p) : p.loc = t.locOf q := by
  obtain ⟨-, hs⟩ := (resolve_eq_ok_iff_stride ht).1 h
  rw [hq.steps_eq_components, startOf_of_isNormal hq] at hs
  exact (isStride_of_stride hs).loc_eq ht fun c => hq.isFileName_of_mem

theorem locate_eq_some_of_isNormal (ht : t.IsLinkFree) (hq : q.IsNormal)
    (h : t.locate aim q = some l) : l = t.locOf q := by
  obtain ⟨p, hp, rfl⟩ := locate_eq_some_iff_exists.1 h
  exact loc_of_resolve ht hq hp

/-! ## Files -/

theorem Alike.hasRoom (h : Alike S t u) (hl : ∀ m, m <:+ l → S m) (hroom : t.HasRoom l) :
    u.HasRoom l where
  isDir_tail := (h.entryAt_eq _ (hl _ (List.tail_suffix l))).trans hroom.isDir_tail
  not_dir := (h.entryAt_eq _ (hl _ (List.suffix_refl l))).symm ▸ hroom.not_dir

theorem Alike.symm (h : Alike S t u) : Alike S u t :=
  ⟨h.workDir.symm, fun m hm => (h.entryAt_eq m hm).symm⟩

theorem Alike.put (h : Alike S t u) (hl : ∀ m, m <:+ l → S m) (e : Entry) :
    Alike S (t.put l e) (u.put l e) where
  workDir := by rw [workDir_put, workDir_put, h.workDir]
  entryAt_eq m hm := by
    by_cases hroom : t.HasRoom l
    · by_cases hml : m = l
      · rw [hml, entryAt_put_self hroom, entryAt_put_self (h.hasRoom hl hroom)]
      · rw [entryAt_put_ne hml, entryAt_put_ne hml, h.entryAt_eq m hm]
    · rw [put_of_not_hasRoom hroom, put_of_not_hasRoom (mt (h.symm.hasRoom hl) hroom),
        h.entryAt_eq m hm]

theorem Alike.commit (h : Alike S t u) (hl : ∀ m, m <:+ l → S m) (s : Sink) :
    Alike S (t.commit l s) (u.commit l s) := by
  rw [Tree.commit, Tree.commit, h.entryAt_eq l (hl l (List.suffix_refl l))]
  split
  · exact h.put hl _
  · exact h

theorem Alike.sourceAt_eq (h : Alike S t u) (hl : S l) : u.sourceAt l = t.sourceAt l :=
  sourceAt_congr (h.entryAt_eq l hl)

theorem Alike.sinkAt_eq (h : Alike S t u) (hl : S l) : u.sinkAt l = t.sinkAt l := by
  rw [sinkAt, sinkAt, h.entryAt_eq l hl]

theorem openRead_eq_of_alike (ht : t.IsLinkFree) (hq : q.IsNormal) (h : Alike S t u)
    (hS : Covers S t q) : u.openRead q = t.openRead q := by
  rw [openRead, openRead, resolve_eq_of_alike ht hq h hS]

theorem openRead_eq_ok (ht : t.IsLinkFree) (hq : q.IsNormal) (h : t.openRead q = .ok l) :
    l = t.locOf q := by
  unfold openRead at h
  split at h
  · cases h
  · cases h
  · next m hr =>
    cases h
    exact loc_of_resolve ht hq hr

/-- A file is created in both trees, at the same place, or in neither, for the same reason. -/
theorem create_of_alike (ht : t.IsLinkFree) (hq : q.IsNormal) (h : Alike S t u)
    (hS : Covers S t q) :
    (∃ e, t.create q = .error e ∧ u.create q = .error e) ∨
      ∃ t' u' l, t.create q = .ok (t', l) ∧ u.create q = .ok (u', l) ∧
        (∀ m, m <:+ l → S m) ∧ Alike S t' u' := by
  have hres : u.resolve .creation q = t.resolve .creation q := resolve_eq_of_alike ht hq h hS
  rw [create, create, hres]
  cases hr : t.resolve .creation q with
  | error e => exact .inl ⟨e, rfl, rfl⟩
  | ok p =>
    have hl : ∀ m, m <:+ p.loc → S m := loc_of_resolve ht hq hr ▸ hS
    cases p with
    | vacant dir name => exact .inr ⟨_, _, name :: dir, rfl, rfl, hl, h.put hl _⟩
    | found l =>
      have hentry : u.entryAt l = t.entryAt l := h.entryAt_eq l (hl l (List.suffix_refl l))
      simp only [hentry]
      split
      · exact .inl ⟨_, rfl, rfl⟩
      · exact .inr ⟨t, u, l, rfl, rfl, hl, h⟩
      · exact .inr ⟨_, _, l, rfl, rfl, hl, h.put hl _⟩
      · exact .inr ⟨_, _, l, rfl, rfl, hl, h.put hl _⟩

end StoreLog.Tree
