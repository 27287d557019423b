-- SUMMARY: Ways through a tree as relations, with one rule for each kind of component.
import StoreLog.Proofs.Path.Normal

/-!
# Ways through a tree

What going along components does, as relations: `IsStride` has one rule for each thing that
a component can do to a way that comes to a halt, and `IsWalk` goes on from the links where
strides stop.
-/

namespace StoreLog.Tree

variable {t : Tree} {aim : Aim} {l m : Loc} {cs : List Name} {halt : Halt} {p : Place}
  {links : Nat}

/-! ## Rules -/

/-- One more component can be taken at a place, before others: it is a directory, and what comes
after the component is not the empty one alone. -/
def GoesOn (t : Tree) (l : Loc) (cs : List Name) : Prop :=
  t.entryAt l = some .dir ∧ cs ≠ [[]]

/-- A component that has to be looked up. -/
def IsName (c : Name) : Prop :=
  Path.isFileName c = true ∧ c.length ≤ maxName

instance (c : Name) : Decidable (IsName c) :=
  inferInstanceAs (Decidable (_ ∧ _))

/-- What begins with a name is not the empty component alone. -/
theorem IsName.cons_ne {c : Name} (hc : IsName c) (cs : List Name) : c :: cs ≠ [[]] := by
  rintro ⟨⟩
  exact absurd hc.1 (by decide)

/-- Components lead from a place to a halt: one rule for each thing that a component can do. -/
inductive IsStride (t : Tree) (aim : Aim) (halt : Halt) : Loc → List Name → Prop
  | here {l : Loc} (hhalt : halt = .place (.found l)) : IsStride t aim halt l []
  | stay {l : Loc} {c : Name} {cs : List Name} (hl : t.GoesOn l cs)
      (hc : c = [] ∨ c = [Path.dot]) (hs : IsStride t aim halt l cs) :
      IsStride t aim halt l (c :: cs)
  | up {l : Loc} {cs : List Name} (hl : t.GoesOn l cs) (hs : IsStride t aim halt l.tail cs) :
      IsStride t aim halt l ([Path.dot, Path.dot] :: cs)
  | down {l : Loc} {c : Name} {cs : List Name} {e : Entry} (hl : t.GoesOn l cs) (hc : IsName c)
      (he : t.entryAt (c :: l) = some e) (hlink : e.isLink = false)
      (hs : IsStride t aim halt (c :: l) cs) : IsStride t aim halt l (c :: cs)
  | vacant {l : Loc} {c : Name} (hl : t.GoesOn l []) (hc : IsName c)
      (hnone : t.entryAt (c :: l) = none) (hhalt : halt = .place (.vacant l c)) :
      IsStride t aim halt l [c]
  /-- A link itself is what is looked for. -/
  | own {l : Loc} {c : Name} {target : Path} (hl : t.GoesOn l []) (hc : IsName c)
      (he : t.entryAt (c :: l) = some (.link target)) (haim : aim = .entry)
      (hhalt : halt = .place (.found (c :: l))) : IsStride t aim halt l [c]
  | link {l : Loc} {c : Name} {cs : List Name} {target : Path} (hl : t.GoesOn l cs)
      (hc : IsName c) (he : t.entryAt (c :: l) = some (.link target))
      (haim : cs = [] → aim ≠ .entry) (hhalt : halt = .link l target cs) :
      IsStride t aim halt l (c :: cs)

theorem isStride_of_stride (h : t.stride aim l cs = .ok halt) : t.IsStride aim halt l cs := by
  induction cs generalizing l with
  | nil => exact .here (Except.ok.inj h).symm
  | cons c cs ih =>
    rw [stride] at h
    split at h
    · cases h
    next hdir =>
    split at h
    · cases h
    next hlast =>
    have hl : t.GoesOn l cs := ⟨Decidable.not_not.1 hdir, hlast⟩
    split at h
    · next hc => exact .stay hl hc (ih h)
    next hdot =>
    split at h
    · next hc =>
      subst hc
      exact .up hl (ih h)
    next hdots =>
    split at h
    · cases h
    next hlen =>
    have hc : IsName c := by
      refine ⟨Path.isFileName_iff.2 ⟨?_, ?_, hdots⟩, Nat.le_of_not_lt hlen⟩
      · exact fun hnil => hdot (.inl hnil)
      · exact fun hone => hdot (.inr hone)
    split at h
    · next hnone =>
      split at h
      · next hnil =>
        obtain rfl := List.isEmpty_iff.1 hnil
        exact .vacant hl hc hnone (Except.ok.inj h).symm
      · cases h
    · next target he =>
      split at h
      · next hown =>
        obtain rfl := List.isEmpty_iff.1 hown.1
        exact .own hl hc he hown.2 (Except.ok.inj h).symm
      · next hnot =>
        exact .link hl hc he (fun hnil haim => hnot ⟨List.isEmpty_iff.2 hnil, haim⟩)
          (Except.ok.inj h).symm
    · next e hnot he =>
      refine .down hl hc he ?_ (ih h)
      cases e with
      | link target => exact absurd rfl (hnot target)
      | _ => rfl

theorem stride_of_name {c : Name} (hl : t.GoesOn l cs) (hc : IsName c) :
    t.stride aim l (c :: cs) =
      match t.entryAt (c :: l) with
      | none => if cs.isEmpty then .ok (.place (.vacant l c)) else .error .notFound
      | some (.link target) =>
        if cs.isEmpty ∧ aim = .entry then .ok (.place (.found (c :: l)))
        else .ok (.link l target cs)
      | some _ => t.stride aim (c :: l) cs := by
  obtain ⟨hnil, hdot, hdots⟩ := Path.isFileName_iff.1 hc.1
  rewrite [stride, if_neg (not_not.2 hl.1), if_neg hl.2, if_neg (by simp [hnil, hdot]),
    if_neg hdots, if_neg (Nat.not_lt_of_le hc.2)]
  rfl

theorem IsStride.stride_eq (h : t.IsStride aim halt l cs) : t.stride aim l cs = .ok halt := by
  induction h with
  | here hhalt => rw [stride, hhalt]
  | stay hl hc _ ih => rw [stride, if_neg (not_not.2 hl.1), if_neg hl.2, if_pos hc, ih]
  | up hl _ ih =>
    rw [stride, if_neg (not_not.2 hl.1), if_neg hl.2, if_neg (by decide), if_pos rfl, ih]
  | @down l c cs e hl hc he hlink _ ih =>
    rw [stride_of_name hl hc, he]
    cases e with
    | link target => cases hlink
    | _ => exact ih
  | vacant hl hc hnone hhalt =>
    rw [stride_of_name hl hc, hnone, hhalt]
    rfl
  | own hl hc he haim hhalt =>
    rw [stride_of_name hl hc, he, hhalt, haim]
    rfl
  | link hl hc he haim hhalt =>
    rw [stride_of_name hl hc, he, hhalt]
    exact if_neg fun h => haim (List.isEmpty_iff.1 h.1) h.2

/-- A walk ends where its first stride does, or goes on from the link that this stops at. -/
theorem walk_eq_ok_iff_or {links : Nat} {p : Place} :
    t.walk aim links m cs = .ok p ↔
      t.stride aim m cs = .ok (.place p) ∨
        ∃ dir target rest n, links = n + 1 ∧ t.stride aim m cs = .ok (.link dir target rest) ∧
          t.walk aim n (startOf target dir) (target.steps aim ++ rest) = .ok p := by
  rw [walk]
  cases t.stride aim m cs with
  | error e => simp
  | ok halt =>
    cases halt with
    | place p' => simp
    | link dir target rest => cases links <;> simp [and_assoc]

/-- Components lead from a place to another one, through at most some number of links. -/
inductive IsWalk (t : Tree) (aim : Aim) (p : Place) : Nat → Loc → List Name → Prop
  | place {links : Nat} {l : Loc} {cs : List Name} (hs : t.IsStride aim (.place p) l cs) :
      IsWalk t aim p links l cs
  | link {links : Nat} {l dir : Loc} {target : Path} {cs rest : List Name}
      (hs : t.IsStride aim (.link dir target rest) l cs)
      (hw : IsWalk t aim p links (startOf target dir) (target.steps aim ++ rest)) :
      IsWalk t aim p (links + 1) l cs

theorem isWalk_iff : t.IsWalk aim p links l cs ↔ t.walk aim links l cs = .ok p := by
  constructor
  · intro h
    induction h with
    | place hs => exact walk_eq_ok_iff_or.2 (.inl hs.stride_eq)
    | link hs _ ih => exact walk_eq_ok_iff_or.2 (.inr ⟨_, _, _, _, rfl, hs.stride_eq, ih⟩)
  · intro h
    induction links generalizing l cs with
    | zero =>
      obtain hs | ⟨_, _, _, _, ⟨⟩, _⟩ := walk_eq_ok_iff_or.1 h
      exact .place (isStride_of_stride hs)
    | succ links ih =>
      obtain hs | ⟨_, _, _, _, ⟨rfl⟩, hs, hw⟩ := walk_eq_ok_iff_or.1 h
      · exact .place (isStride_of_stride hs)
      · exact .link (isStride_of_stride hs) (ih hw)

/-- A path leads to a place by a walk along its components. -/
theorem resolve_eq_ok_iff_isWalk {q : Path} :
    t.resolve aim q = .ok p ↔
      fault? q = none ∧ t.IsWalk aim p maxLinks (startOf q t.workDir) (q.steps aim) := by
  rw [resolve, resolveSteps, isWalk_iff]
  cases fault? q with
  | some e => simp
  | none => cases t.walk aim maxLinks (startOf q t.workDir) (q.steps aim) <;> simp [Except.mapError]

/-! ## Vacant places -/

/-- A vacant place is free in a directory. -/
theorem IsStride.of_vacant {dir : Loc} {name : Name}
    (h : t.IsStride aim (.place (.vacant dir name)) l cs) :
    t.entryAt dir = some .dir ∧ t.entryAt (name :: dir) = none := by
  induction h with
  | here hhalt => cases hhalt
  | stay _ _ _ ih => exact ih
  | up _ _ ih => exact ih
  | down _ _ _ _ _ ih => exact ih
  | vacant hl _ hnone hhalt =>
    cases hhalt
    exact ⟨hl.1, hnone⟩
  | own _ _ _ _ hhalt => cases hhalt
  | link _ _ _ _ hhalt => cases hhalt

theorem IsWalk.of_vacant {dir : Loc} {name : Name}
    (h : t.IsWalk aim (.vacant dir name) links l cs) :
    t.entryAt dir = some .dir ∧ t.entryAt (name :: dir) = none := by
  induction h with
  | place hs => exact hs.of_vacant
  | link _ _ ih => exact ih

theorem hasRoom_of_entryAt_eq_none {dir : Loc} {name : Name} (hdir : t.entryAt dir = some .dir)
    (h : t.entryAt (name :: dir) = none) : t.HasRoom (name :: dir) where
  isDir_tail := hdir
  not_dir := by simp [h]

/-! ## A dot at the end -/

theorem GoesOn.append_dot (hl : t.GoesOn l cs) : t.GoesOn l (cs ++ [[Path.dot]]) := by
  refine ⟨hl.1, fun heq => ?_⟩
  simpa using congrArg List.getLast? heq

theorem IsStride.append_dot (hs : t.IsStride .target (.place (.found m)) l cs)
    (hdir : t.entryAt m = some .dir) :
    t.IsStride .target (.place (.found m)) l (cs ++ [[Path.dot]]) := by
  induction hs with
  | here hhalt =>
    cases hhalt
    exact .stay ⟨hdir, by simp⟩ (.inr rfl) (.here rfl)
  | stay hl hc _ ih => exact .stay hl.append_dot hc ih
  | up hl _ ih => exact .up hl.append_dot ih
  | down hl hc he hlink _ ih => exact .down hl.append_dot hc he hlink ih
  | vacant _ _ _ hhalt => cases hhalt
  | own _ _ _ haim _ => cases haim
  | link _ _ _ _ hhalt => cases hhalt

theorem IsStride.link_append_dot {dir : Loc} {target : Path} {rest : List Name}
    (hs : t.IsStride .target (.link dir target rest) l cs) :
    t.IsStride .target (.link dir target (rest ++ [[Path.dot]])) l (cs ++ [[Path.dot]]) := by
  induction hs with
  | here hhalt => cases hhalt
  | stay hl hc _ ih => exact .stay hl.append_dot hc ih
  | up hl _ ih => exact .up hl.append_dot ih
  | down hl hc he hlink _ ih => exact .down hl.append_dot hc he hlink ih
  | vacant _ _ _ hhalt => cases hhalt
  | own _ _ _ _ hhalt => cases hhalt
  | link hl hc he _ hhalt =>
    cases hhalt
    exact .link hl.append_dot hc he (by simp) rfl

/-- A dot at the end of a way asks for the directory to which it has led. -/
theorem IsWalk.append_dot (hw : t.IsWalk .target (.found m) links l cs)
    (hdir : t.entryAt m = some .dir) :
    t.IsWalk .target (.found m) links l (cs ++ [[Path.dot]]) := by
  induction hw with
  | place hs => exact .place (hs.append_dot hdir)
  | link hs _ ih =>
    rw [List.append_assoc] at ih
    exact .link hs.link_append_dot ih

end StoreLog.Tree
