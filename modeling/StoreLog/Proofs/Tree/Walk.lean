-- SUMMARY: Paths in a tree without links, by the directories that they enter.
import StoreLog.Proofs.Tree.Ways

/-!
# Paths in a tree without links

Without links, a path leads through directories to the one that its last name
stands in. Which one that is depends on the directories of the tree alone, so a
path leads to the same place after a file has come, gone or changed.
-/

namespace StoreLog.Tree

variable {t u : Tree} {aim : Aim} {l d : Loc} {c : Name} {cs : List Name}

/-! ## Entering directories -/

/-- The directory to which components lead, all of which have to be directories. -/
def enter (t : Tree) (l : Loc) : List Name → Option Loc
  | [] => if t.entryAt l = some .dir then some l else none
  | c :: cs =>
    if t.entryAt l ≠ some .dir then none
    else if c = [] ∨ c = [Path.dot] then enter t l cs
    else if c = [Path.dot, Path.dot] then enter t l.tail cs
    else if maxName < c.length then none
    else enter t (c :: l) cs

/-- Two trees with the same work directory and the same directories. -/
structure SameDirs (t u : Tree) : Prop where
  workDir : t.workDir = u.workDir
  isDir : ∀ l, t.entryAt l = some .dir ↔ u.entryAt l = some .dir

theorem SameDirs.refl (t : Tree) : SameDirs t t :=
  ⟨rfl, fun _ => Iff.rfl⟩

theorem SameDirs.trans {v : Tree} (h : SameDirs t u) (h' : SameDirs u v) : SameDirs t v :=
  ⟨h.workDir.trans h'.workDir, fun l => (h.isDir l).trans (h'.isDir l)⟩

theorem enter_congr (h : SameDirs t u) : t.enter l cs = u.enter l cs := by
  induction cs generalizing l with
  | nil => simp only [enter, h.isDir l]
  | cons c cs ih => simp only [enter, h.isDir l, ne_eq, ih]

theorem isDir_of_enter (h : t.enter l cs = some d) : t.entryAt d = some .dir := by
  induction cs generalizing l with
  | nil =>
    simp only [enter] at h
    split at h
    · next hl => exact Option.some.inj h ▸ hl
    · cases h
  | cons c cs ih =>
    simp only [enter] at h
    repeat' split at h
    · cases h
    · exact ih h
    · exact ih h
    · cases h
    · exact ih h

theorem entryAt_of_enter (h : t.enter l cs = some d) : t.entryAt l = some .dir := by
  cases cs with
  | nil =>
    simp only [enter] at h
    split at h
    · next hl => exact hl
    · cases h
  | cons c cs =>
    simp only [enter] at h
    split at h
    · cases h
    · next hl => exact Decidable.not_not.1 hl

/-! ## The last component -/

theorem stride_append_of_enter (hc : c ≠ []) (h : t.enter l cs = some d) :
    t.stride aim l (cs ++ [c]) = t.stride aim d [c] := by
  induction cs generalizing l with
  | nil =>
    have hl := entryAt_of_enter h
    simp only [enter, hl, if_true, Option.some.injEq] at h
    rw [h, List.nil_append]
  | cons a cs ih =>
    have hl := entryAt_of_enter h
    have hlast : cs ++ [c] ≠ [[]] := by
      intro heq
      have := congrArg List.getLast? heq
      simp at this
      exact hc this
    simp only [enter, hl, ne_eq, not_true_eq_false, if_false] at h
    rw [List.cons_append, stride, if_neg (not_not.2 hl), if_neg hlast]
    split at h
    · next ha => rw [if_pos ha, ih h]
    · next ha =>
      rw [if_neg ha]
      split at h
      · next ha => rw [if_pos ha, ih h]
      · next ha =>
        rw [if_neg ha]
        split at h
        · cases h
        · next hlen => rw [if_neg hlen, entryAt_of_enter h, ← ih h]

theorem exists_enter_of_stride (ht : t.IsLinkFree) {halt : Halt}
    (h : t.stride aim l (cs ++ [c]) = .ok halt) : ∃ d, t.enter l cs = some d := by
  induction cs generalizing l with
  | nil =>
    simp only [List.nil_append, stride] at h
    split at h
    · cases h
    · next hl => exact ⟨l, by simp only [enter, Decidable.not_not.1 hl, if_true]⟩
  | cons a cs ih =>
    rw [List.cons_append, stride] at h
    simp only [enter]
    split at h
    · cases h
    next hl =>
    rw [if_neg hl]
    split at h
    · cases h
    split at h
    · next ha => exact (if_pos ha).symm ▸ ih h
    next ha =>
    rw [if_neg ha]
    split at h
    · next ha => exact (if_pos ha).symm ▸ ih h
    next ha =>
    rw [if_neg ha]
    split at h
    · cases h
    next hlen =>
    rw [if_neg hlen]
    split at h
    · simp at h
    · next target hlink => exact absurd hlink (ht _ target)
    · exact ih h

/-- What stands under a name in a directory. -/
def placeIn (t : Tree) (d : Loc) (c : Name) : Place :=
  if t.entryAt (c :: d) = none then .vacant d c else .found (c :: d)

theorem stride_name (ht : t.IsLinkFree) (hd : t.entryAt d = some .dir)
    (hc : Path.isFileName c = true) :
    t.stride aim d [c] =
      if maxName < c.length then .error .nameTooLong else .ok (.place (t.placeIn d c)) := by
  simp only [Path.isFileName, List.isEmpty_iff, Bool.and_eq_true, Bool.not_eq_true', bne_iff_ne,
    ne_eq, Bool.eq_false_iff] at hc
  obtain ⟨⟨hnil, hdot⟩, hdots⟩ := hc
  rw [stride, if_neg (not_not.2 hd), if_neg (by simp), if_neg (by simp [hnil, hdot]), if_neg hdots]
  split
  · rfl
  · unfold placeIn
    cases he : t.entryAt (c :: d) with
    | none => simp
    | some e =>
      cases e with
      | link target => exact absurd he (ht _ target)
      | _ => simp [stride]

/-! ## Whole paths -/

theorem stride_ne_link (ht : t.IsLinkFree) {dir : Loc} {target : Path} {rest : List Name} :
    t.stride aim l cs ≠ .ok (.link dir target rest) := by
  induction cs generalizing l with
  | nil => simp [stride]
  | cons c cs ih =>
    rw [stride]
    repeat' split
    · simp
    · simp
    · exact ih
    · exact ih
    · simp
    · simp
    · simp
    · simp
    · next link hlink _ => exact absurd hlink (ht _ link)
    · exact ih

theorem walk_eq_ok_iff (ht : t.IsLinkFree) {links : Nat} {p : Place} :
    t.walk aim links l cs = .ok p ↔ t.stride aim l cs = .ok (.place p) := by
  rw [walk]
  split
  · next h => simp [h]
  · next h => simp [h]
  · next h => exact absurd h (stride_ne_link ht)

/-- Without links, a path leads to a place in one stride. -/
theorem resolve_eq_ok_iff_stride (ht : t.IsLinkFree) {q : Path} {p : Place} :
    t.resolve aim q = .ok p ↔
      fault? q = none ∧ t.stride aim (startOf q t.workDir) (q.steps aim) = .ok (.place p) := by
  rw [resolve_eq_ok_iff_isWalk, isWalk_iff, walk_eq_ok_iff ht]

/-- The directory that the last name of a path stands in. -/
def directoryOf (t : Tree) (q : Path) : Option Loc :=
  t.enter (startOf q t.workDir) (Path.components (Path.around q))

theorem directoryOf_congr (h : SameDirs t u) (q : Path) : t.directoryOf q = u.directoryOf q := by
  rw [directoryOf, directoryOf, h.workDir, enter_congr h]

theorem directoryOf_append (t : Tree) {q e : Path} (he : Path.slash ∉ e) :
    t.directoryOf (q ++ e) = t.directoryOf q := by
  rw [directoryOf, directoryOf, Path.around_append he, Path.startOf_append he]

/-- A path leads to a place, be there something or not. -/
def Reaches (t : Tree) (q : Path) (l : Loc) : Prop :=
  fault? q = none ∧ (Path.leaf q).length ≤ maxName ∧
    ∃ d, t.directoryOf q = some d ∧ l = Path.leaf q :: d

theorem reaches_congr (h : SameDirs t u) {q : Path} : t.Reaches q l ↔ u.Reaches q l := by
  simp only [Reaches, directoryOf_congr h]

theorem Reaches.unique {q : Path} {m : Loc} (h : t.Reaches q l) (h' : t.Reaches q m) : l = m := by
  obtain ⟨-, -, d, hd, rfl⟩ := h
  obtain ⟨-, -, d', hd', rfl⟩ := h'
  rw [Option.some.inj (hd.symm.trans hd')]

/-- There is room at a place to which a path leads, unless a directory is there. -/
theorem Reaches.hasRoom {q : Path} (h : t.Reaches q l) (hdir : t.entryAt l ≠ some .dir) :
    t.HasRoom l where
  isDir_tail := by
    obtain ⟨-, -, d, hd, rfl⟩ := h
    exact isDir_of_enter hd
  not_dir := hdir

/-- What stands at a place to which a path leads. -/
def placeAt (t : Tree) : Loc → Place
  | [] => .found []
  | c :: d => t.placeIn d c

theorem resolve_eq_ok_iff (ht : t.IsLinkFree) {q : Path}
    (hq : Path.isFileName (Path.leaf q) = true) {p : Place} :
    t.resolve aim q = .ok p ↔ ∃ l, t.Reaches q l ∧ p = t.placeAt l := by
  have hne : Path.leaf q ≠ [] := by
    intro h
    rw [h] at hq
    exact absurd hq (by decide)
  have hsteps : Path.steps aim q = Path.components (Path.around q) ++ [Path.leaf q] := by
    have hs : Path.endsWithSlash q = false := by
      rw [Bool.eq_false_iff, ne_eq, Path.endsWithSlash_iff]
      exact fun h => hne h.2
    rw [Path.steps, hs, if_neg Bool.false_ne_true, Path.components_eq]
    simp [hne]
  rw [resolve_eq_ok_iff_stride ht, hsteps]
  constructor
  · rintro ⟨hf, h⟩
    obtain ⟨d, hd⟩ := exists_enter_of_stride ht h
    rw [stride_append_of_enter hne hd, stride_name ht (isDir_of_enter hd) hq] at h
    split at h
    · cases h
    · next hlen =>
      cases h
      exact ⟨Path.leaf q :: d, ⟨hf, Nat.le_of_not_lt hlen, d, hd, rfl⟩, rfl⟩
  · rintro ⟨l, ⟨hf, hlen, d, hd, rfl⟩, rfl⟩
    refine ⟨hf, ?_⟩
    rw [stride_append_of_enter hne hd, stride_name ht (isDir_of_enter hd) hq,
      if_neg (Nat.not_lt_of_le hlen)]
    rfl

theorem placeAt_eq_found (h : t.entryAt l ≠ none) : t.placeAt l = .found l := by
  cases l with
  | nil => rfl
  | cons c d => rw [placeAt, placeIn, if_neg h]

/-- A path that leads to something leads to a directory or to a name in one. After two dots
the directory around may be no directory, but is still shorter. -/
theorem found_cases (ht : t.IsLinkFree) {q : Path} (h : t.resolve .target q = .ok (.found l)) :
    t.entryAt l = some .dir ∨
      ∃ d, t.directoryOf q = some d ∧
        (Path.leaf q = [Path.dot, Path.dot] ∧ l = d.tail ∨
          Path.isFileName (Path.leaf q) = true ∧ l = Path.leaf q :: d) := by
  obtain ⟨hf, hs⟩ := (resolve_eq_ok_iff_stride ht).1 h
  have hdot : Path.finalStep .target = [Path.dot] := rfl
  unfold Path.steps at hs
  split at hs
  · -- A slash at the end asks for a directory.
    obtain ⟨d, hd⟩ := exists_enter_of_stride ht hs
    have hdir := isDir_of_enter hd
    rw [stride_append_of_enter (by simp [hdot]) hd, hdot] at hs
    simp only [stride, hdir, ne_eq, not_true_eq_false, if_false, or_true, if_true] at hs
    cases hs
    exact .inl hdir
  · next hslash =>
    have hq : q ≠ [] := by
      rintro rfl
      simp [fault?] at hf
    have hne : Path.leaf q ≠ [] := fun hl => hslash (Path.endsWithSlash_iff.2 ⟨hq, hl⟩)
    rw [Path.components_eq, List.filter_cons_of_pos (by simpa using hne), List.filter_nil] at hs
    obtain ⟨d, hd⟩ := exists_enter_of_stride ht hs
    have hdir := isDir_of_enter hd
    rw [stride_append_of_enter hne hd] at hs
    by_cases h1 : Path.leaf q = [Path.dot]
    · simp only [stride, h1, hdir, ne_eq, not_true_eq_false, if_false, or_true, if_true] at hs
      cases hs
      exact .inl hdir
    by_cases h2 : Path.leaf q = [Path.dot, Path.dot]
    · rw [h2, stride, if_neg (not_not.2 hdir), if_neg (by simp), if_neg (by decide), if_pos rfl]
        at hs
      cases hs
      exact .inr ⟨d, hd, .inl ⟨h2, rfl⟩⟩
    · have hname : Path.isFileName (Path.leaf q) = true := by
        simp [Path.isFileName, hne, h1, h2]
      rw [stride_name ht hdir hname] at hs
      split at hs
      · cases hs
      · unfold placeIn at hs
        split at hs
        · cases hs
        · cases hs
          exact .inr ⟨d, hd, .inr ⟨hname, rfl⟩⟩

end StoreLog.Tree
