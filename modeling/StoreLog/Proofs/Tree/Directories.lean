-- SUMMARY: Making directories adds directories, and those on the way of the path only.
import StoreLog.Proofs.Tree.Frame
import StoreLog.Tree.Directories

/-!
# Making directories

Directories are made from the outside in, each of them where nothing is. Wherever that
stops, all that was there is as it was, and what has come are directories to which the path
or a leading part of it leads: a way to a directory is not lost when a tree gains entries.
-/

namespace StoreLog

/-- Components of a path: all of them, or leading ones without those that are a dot. -/
def Path.IsLeading (p : Path) (cs : List Name) : Prop :=
  cs = p.components ∨ cs <+: p.components.filter (· ≠ [Path.dot])

namespace Tree

variable {t u v : Tree} {aim : Aim} {halt : Halt} {links : Nat} {start l : Loc}
  {cs : List Name} {p : Path} {ways : List Name → Prop}
  {around : Tree → Tree × Except OsError Unit}

/-! ## Trees that keep what they have -/

/-- All that is in one tree is in the other one, as it is there. -/
structure Keeps (t u : Tree) : Prop where
  workDir : u.workDir = t.workDir
  entryAt_eq_some : ∀ l e, t.entryAt l = some e → u.entryAt l = some e

theorem Keeps.refl (t : Tree) : Keeps t t :=
  ⟨rfl, fun _ _ he => he⟩

theorem Keeps.trans (h : Keeps t u) (h' : Keeps u v) : Keeps t v where
  workDir := h'.workDir.trans h.workDir
  entryAt_eq_some l e he := h'.entryAt_eq_some l e (h.entryAt_eq_some l e he)

theorem keeps_put (hl : t.entryAt l = none) (e : Entry) : Keeps t (t.put l e) where
  workDir := workDir_put t l e
  entryAt_eq_some m f hf := by
    have hml : m ≠ l := by
      rintro rfl
      rw [hl] at hf
      cases hf
    rw [entryAt_put_ne hml, hf]

theorem Keeps.goesOn (h : Keeps t u) (hl : t.GoesOn l cs) : u.GoesOn l cs :=
  ⟨h.entryAt_eq_some l .dir hl.1, hl.2⟩

/-- The same halt, with something at the place where it is. -/
def Halt.arrived : Halt → Halt
  | .place p => .place (.found p.loc)
  | .link dir target rest => .link dir target rest

/-- In a tree that has gained entries, a way goes where it went, and finds what is there now if
that is a directory. -/
theorem IsStride.of_keeps (h : Keeps t u) (hs : t.IsStride aim halt l cs)
    (hdir : ∀ p, halt = .place p → u.entryAt p.loc = some .dir) :
    u.IsStride .target halt.arrived l cs := by
  induction hs with
  | here hhalt => exact .here (by rw [hhalt]; rfl)
  | stay hl hc _ ih => exact .stay (h.goesOn hl) hc ih
  | up hl _ ih => exact .up (h.goesOn hl) ih
  | down hl hc he hlink _ ih =>
    exact .down (h.goesOn hl) hc (h.entryAt_eq_some _ _ he) hlink ih
  | vacant hl hc _ hhalt =>
    -- The name was free, and has become that of a directory.
    have hnew := hdir _ hhalt
    exact .down (h.goesOn hl) hc hnew rfl (.here (by rw [hhalt]; rfl))
  | own hl hc he _ hhalt =>
    -- A link has not become a directory.
    have hnew := hdir _ hhalt
    rw [Place.loc, h.entryAt_eq_some _ _ he] at hnew
    cases hnew
  | link hl hc he _ hhalt =>
    exact .link (h.goesOn hl) hc (h.entryAt_eq_some _ _ he) (by simp) (by rw [hhalt]; rfl)

theorem steps_of_ne_creation (haim : aim ≠ .creation) (q : Path) :
    q.steps aim = q.steps .target := by
  cases aim with
  | creation => exact absurd rfl haim
  | _ => rfl

theorem IsWalk.of_keeps {q : Place} (h : Keeps t u) (haim : aim ≠ .creation)
    (hw : t.IsWalk aim q links l cs) (hdir : u.entryAt q.loc = some .dir) :
    u.IsWalk .target (.found q.loc) links l cs := by
  induction hw with
  | place hs =>
    refine .place (hs.of_keeps h ?_)
    rintro _ ⟨rfl⟩
    exact hdir
  | link hs _ ih =>
    rw [steps_of_ne_creation haim] at ih
    exact .link (hs.of_keeps h nofun) ih

/-! ## Directories that components lead to -/

/-- Components lead to a directory, through links if there are any. -/
structure LeadsToDir (t : Tree) (start : Loc) (cs : List Name) (l : Loc) : Prop where
  walk_eq : t.walk .target maxLinks start cs = .ok (.found l)
  isDir : t.entryAt l = some .dir

/-- A way to a directory is kept when entries come. -/
theorem LeadsToDir.of_keeps (hl : t.LeadsToDir start cs l) (h : Keeps t u) :
    u.LeadsToDir start cs l where
  walk_eq := by
    have hdir : u.entryAt (Place.found l).loc = some .dir := h.entryAt_eq_some l .dir hl.isDir
    exact isWalk_iff.1 ((isWalk_iff.2 hl.walk_eq).of_keeps h (by decide) hdir)
  isDir := h.entryAt_eq_some l .dir hl.isDir

theorem isDirAt_iff : t.isDirAt start cs = true ↔ ∃ l, t.LeadsToDir start cs l := by
  unfold isDirAt
  split
  · next l hw =>
    rw [beq_iff_eq]
    refine ⟨fun hdir => ⟨l, hw, hdir⟩, fun ⟨m, hm⟩ => ?_⟩
    obtain rfl : l = m := by simpa [hw] using hm.walk_eq
    exact hm.isDir
  · next hnot => exact iff_of_false Bool.false_ne_true fun ⟨l, hl⟩ => hnot l hl.walk_eq

theorem isDir_iff :
    t.isDir p = true ↔ ∃ l, t.resolve .target p = .ok (.found l) ∧ t.entryAt l = some .dir := by
  unfold isDir
  split
  · next l hr => simp [hr]
  · next hnot => exact iff_of_false Bool.false_ne_true fun ⟨l, hr, _⟩ => hnot l hr

/-- A slash at the end of a path makes no difference to a directory. -/
theorem isDir_of_leadsToDir (hp : fault? p = none)
    (h : t.LeadsToDir (startOf p t.workDir) p.components l) : t.isDir p = true := by
  refine isDir_iff.2 ⟨l, resolve_eq_ok_iff_isWalk.2 ⟨hp, ?_⟩, h.isDir⟩
  have hw := isWalk_iff.2 h.walk_eq
  unfold Path.steps
  split
  · exact hw.append_dot h.isDir
  · exact hw

/-! ## Trees that gain directories -/

/-- One tree has all of the other one, and besides only directories to which components of a
kind lead. -/
structure AddsDirs (ways : List Name → Prop) (start : Loc) (t u : Tree) : Prop
    extends Keeps t u where
  added : ∀ l, t.entryAt l = none →
    u.entryAt l = none ∨ ∃ cs, ways cs ∧ u.LeadsToDir start cs l

theorem AddsDirs.refl (ways : List Name → Prop) (start : Loc) (t : Tree) :
    AddsDirs ways start t t where
  toKeeps := .refl t
  added _ hl := .inl hl

theorem AddsDirs.trans (h : AddsDirs ways start t u) (h' : AddsDirs ways start u v) :
    AddsDirs ways start t v where
  toKeeps := h.toKeeps.trans h'.toKeeps
  added l hl := by
    obtain hnone | ⟨cs, hcs, hleads⟩ := h.added l hl
    · exact h'.added l hnone
    · exact .inr ⟨cs, hcs, hleads.of_keeps h'.toKeeps⟩

theorem AddsDirs.mono {ways' : List Name → Prop} (h : AddsDirs ways start t u)
    (hways : ∀ cs, ways cs → ways' cs) : AddsDirs ways' start t u where
  toKeeps := h.toKeeps
  added l hl := (h.added l hl).imp_right fun ⟨cs, hcs, hleads⟩ => ⟨cs, hways cs hcs, hleads⟩

/-! ## Single directories -/

/-- A directory is made where nothing is, and its components lead to it. -/
theorem makeDir_ok (h : t.makeDir start cs = .ok u) :
    ∃ l, t.entryAt l = none ∧ u = t.put l .dir ∧ u.LeadsToDir start cs l := by
  unfold makeDir at h
  split at h
  · cases h
  · cases h
  · next dir name hw =>
    cases h
    have hwalk := isWalk_iff.2 hw
    obtain ⟨haround, hnone⟩ := hwalk.of_vacant
    have hdir : (t.put (name :: dir) .dir).entryAt (Place.vacant dir name).loc = some .dir :=
      entryAt_put_self (hasRoom_of_entryAt_eq_none haround hnone) .dir
    have hnew := hwalk.of_keeps (keeps_put hnone .dir) (by decide) hdir
    exact ⟨name :: dir, hnone, rfl, isWalk_iff.1 hnew, hdir⟩

theorem addsDirs_makeDir (hcs : ways cs) (h : t.makeDir start cs = .ok u) :
    AddsDirs ways start t u := by
  obtain ⟨l, hnone, rfl, hleads⟩ := makeDir_ok h
  refine ⟨keeps_put hnone .dir, fun m hm => ?_⟩
  by_cases hml : m = l
  · exact .inr ⟨cs, hcs, hml ▸ hleads⟩
  · exact .inl ((entryAt_put_ne hml .dir).trans hm)

/-- What it leaves of a tree to make the directory of some components. -/
structure MakesDir (ways : List Name → Prop) (start : Loc) (cs : List Name) (t : Tree)
    (r : Tree × Except OsError Unit) : Prop where
  addsDirs : AddsDirs ways start t r.1
  leadsToDir : r.2 = .ok () → ∃ l, r.1.LeadsToDir start cs l

theorem makesDir_makeDirOrKeep (hcs : ways cs) :
    MakesDir ways start cs t (t.makeDirOrKeep start cs) := by
  unfold makeDirOrKeep
  split
  · next u hmake =>
    obtain ⟨l, -, -, hleads⟩ := makeDir_ok hmake
    exact ⟨addsDirs_makeDir hcs hmake, fun _ => ⟨l, hleads⟩⟩
  · refine ⟨.refl .., fun hok => ?_⟩
    split at hok
    · next hdir => exact isDirAt_iff.1 hdir
    · cases hok

/-! ## Directories with those around them -/

/-- The last directory comes after those around it, if they are made at all. -/
theorem makesDir_makeAfter (hcs : ways cs) (haround : AddsDirs ways start t (around t).1) :
    MakesDir ways start cs t (t.makeAfter start cs around) := by
  unfold makeAfter
  split
  · split
    · next u e hmade =>
      rw [hmade] at haround
      exact ⟨haround, nofun⟩
    · next u hmade =>
      rw [hmade] at haround
      have hlast : MakesDir ways start cs u (u.makeDirOrKeep start cs) := makesDir_makeDirOrKeep hcs
      exact ⟨haround.trans hlast.addsDirs, hlast.leadsToDir⟩
  · exact makesDir_makeDirOrKeep hcs

theorem addsDirs_makeAll (start : Loc) (cs : List Name) (t : Tree) :
    AddsDirs (· <+: cs.reverse) start t (makeAll start cs t).1 := by
  induction cs generalizing t with
  | nil => exact .refl ..
  | cons c cs ih =>
    have haround : AddsDirs (· <+: (c :: cs).reverse) start t (makeAll start cs t).1 := by
      refine (ih t).mono fun ds hds => ?_
      rw [List.reverse_cons]
      exact hds.trans (List.prefix_append ..)
    have hmade : MakesDir (· <+: (c :: cs).reverse) start (c :: cs).reverse t
        (makeAll start (c :: cs) t) := makesDir_makeAfter (List.prefix_refl _) haround
    exact hmade.addsDirs

/-! ## Paths -/

/-- The components of the directories around a path, from the inside out. -/
def componentsAround (p : Path) : List Name :=
  (p.components.filter (· ≠ [Path.dot])).reverse.tail

theorem isLeading_of_isPrefix (h : cs <+: (componentsAround p).reverse) : p.IsLeading cs := by
  rw [componentsAround, List.tail_reverse, List.reverse_reverse] at h
  exact .inr (h.trans (List.dropLast_prefix _))

theorem mapError_eq_ok {x : Except OsError Unit} :
    x.mapError IoError.os = .ok () ↔ x = .ok () := by
  cases x <;> simp [Except.mapError]

theorem makePath_eq (hp : p ≠ []) (hfault : fault? p = none) :
    t.makePath p =
      let r := t.makeAfter (startOf p t.workDir) p.components
        (makeAll (startOf p t.workDir) (componentsAround p))
      (r.1, r.2.mapError .os) := by
  rw [makePath, if_neg (by simpa using hp), hfault]
  rfl

theorem makesDir_makePath (t : Tree) (p : Path) :
    MakesDir p.IsLeading (startOf p t.workDir) p.components t
      (t.makeAfter (startOf p t.workDir) p.components
        (makeAll (startOf p t.workDir) (componentsAround p))) := by
  refine makesDir_makeAfter (.inl rfl) ?_
  exact (addsDirs_makeAll _ _ t).mono fun _ => isLeading_of_isPrefix

theorem addsDirs_makePath (t : Tree) (p : Path) :
    AddsDirs p.IsLeading (startOf p t.workDir) t (t.makePath p).1 := by
  by_cases hp : p = []
  · rw [makePath, hp]
    exact .refl ..
  cases hfault : fault? p with
  | some e =>
    rw [makePath, if_neg (by simpa using hp), hfault]
    exact .refl ..
  | none =>
    rw [makePath_eq hp hfault]
    exact (makesDir_makePath t p).addsDirs

theorem isDir_of_makePath (hp : p ≠ []) (hok : (t.makePath p).2 = .ok ()) :
    (t.makePath p).1.isDir p = true := by
  cases hfault : fault? p with
  | some e =>
    rw [makePath, if_neg (by simpa using hp), hfault] at hok
    cases hok
  | none =>
    have hmade := makesDir_makePath t p
    rw [makePath_eq hp hfault] at hok ⊢
    obtain ⟨l, hleads⟩ := hmade.leadsToDir (mapError_eq_ok.1 hok)
    refine isDir_of_leadsToDir hfault (l := l) ?_
    simp only [hmade.addsDirs.workDir]
    exact hleads

theorem addsDirs_ensureDir (t : Tree) (p : Path) :
    AddsDirs p.IsLeading (startOf p t.workDir) t (t.ensureDir p).tree := by
  unfold ensureDir
  split
  · exact .refl ..
  · exact addsDirs_makePath t p

theorem isDir_of_ensureDir (hp : p ≠ []) (hok : (t.ensureDir p).result = .ok ()) :
    (t.ensureDir p).tree.isDir p = true := by
  unfold ensureDir at hok ⊢
  split
  · next hdir => simpa [hp] using hdir
  · next hdir =>
    rw [if_neg hdir] at hok
    exact isDir_of_makePath hp hok

/-- A directory that has been made sure of is there. -/
theorem ensureDir_again (hok : (t.ensureDir p).result = .ok ()) :
    (t.ensureDir p).tree.ensureDir p = ⟨(t.ensureDir p).tree, [], .ok ()⟩ := by
  have hdir : (p.isEmpty || (t.ensureDir p).tree.isDir p) = true := by
    by_cases hp : p = []
    · simp [hp]
    · simp [isDir_of_ensureDir hp hok]
  generalize (t.ensureDir p).tree = u at hdir ⊢
  rw [ensureDir, if_pos hdir]

end Tree

end StoreLog
