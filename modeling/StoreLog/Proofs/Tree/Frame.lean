-- SUMMARY: Paths lead where they led when a file comes or changes, links or none.
import StoreLog.Proofs.Tree.Files
import StoreLog.Proofs.Tree.Ways

/-!
# Paths in a tree that has links

No path goes on from a place that is neither a directory nor a link. So a path leads
to the same place after a file has come, gone or changed, and finds the same there
unless that is the place of the file. A file that is created and written is such a
change, for what a path leads to is no link, and has room for a file if it is no
directory.
-/

namespace StoreLog

/-- Files and programs, but no devices. -/
def Entry.isFile : Entry → Bool
  | .file _ _ | .program _ => true
  | _ => false

namespace Tree

variable {t u : Tree} {aim : Aim} {l m : Loc} {c : Name} {cs : List Name}

/-! ## Where a path leads -/

def Place.loc : Place → Loc
  | .found l => l
  | .vacant dir name => name :: dir

/-- Where a path leads, be there something or not. -/
def locate (t : Tree) (aim : Aim) (q : Path) : Option Loc :=
  (t.resolve aim q).toOption.map Place.loc

/-- What a path leads to. -/
def look (t : Tree) (aim : Aim) (q : Path) : Option Entry :=
  (t.locate aim q).bind t.entryAt

/-- Where going along components ends, or the link that it stops at. -/
def Halt.stop : Halt → Loc ⊕ (Loc × Path × List Name)
  | .place p => .inl p.loc
  | .link dir target rest => .inr (dir, target, rest)

/-- No path goes on from a place. -/
structure IsEnd (t : Tree) (l : Loc) : Prop where
  not_dir : t.entryAt l ≠ some .dir
  not_link : ∀ target, t.entryAt l ≠ some (.link target)

/-- Two trees that differ at one place at most, from which no path goes on. -/
structure SameBut (t u : Tree) (l : Loc) : Prop where
  workDir : u.workDir = t.workDir
  entryAt_ne : ∀ m, m ≠ l → u.entryAt m = t.entryAt m
  isEnd : t.IsEnd l
  isEnd' : u.IsEnd l

theorem SameBut.isDir_iff (h : SameBut t u l) (m : Loc) :
    u.entryAt m = some .dir ↔ t.entryAt m = some .dir := by
  by_cases hm : m = l
  · subst hm
    exact iff_of_false h.isEnd'.not_dir h.isEnd.not_dir
  · rw [h.entryAt_ne m hm]

theorem SameBut.symm (h : SameBut t u l) : SameBut u t l where
  workDir := h.workDir.symm
  entryAt_ne m hm := (h.entryAt_ne m hm).symm
  isEnd := h.isEnd'
  isEnd' := h.isEnd

theorem SameBut.goesOn (h : SameBut t u l) (hm : t.GoesOn m cs) : u.GoesOn m cs :=
  ⟨(h.isDir_iff m).2 hm.1, hm.2⟩

/-- A way that is at an end is over. -/
theorem IsStride.of_isEnd {halt : Halt} (hs : t.IsStride aim halt m cs) (hm : t.IsEnd m) :
    cs = [] ∧ halt = .place (.found m) := by
  cases hs with
  | here hhalt => exact ⟨rfl, hhalt⟩
  | stay hl => exact absurd hl.1 hm.not_dir
  | up hl => exact absurd hl.1 hm.not_dir
  | down hl => exact absurd hl.1 hm.not_dir
  | vacant hl => exact absurd hl.1 hm.not_dir
  | own hl => exact absurd hl.1 hm.not_dir
  | link hl => exact absurd hl.1 hm.not_dir

/-- A name leads to an end, be there something or not. -/
theorem exists_isStride_of_isEnd (aim : Aim) (hm : t.GoesOn m []) (hc : IsName c)
    (hend : t.IsEnd (c :: m)) :
    ∃ halt, t.IsStride aim halt m [c] ∧ halt.stop = .inl (c :: m) := by
  cases he : t.entryAt (c :: m) with
  | none => exact ⟨_, .vacant hm hc he rfl, rfl⟩
  | some e =>
    have hlink : e.isLink = false := by
      cases e with
      | link target => exact absurd he (hend.not_link target)
      | _ => rfl
    exact ⟨_, .down hm hc he hlink (.here rfl), rfl⟩

/-- A way stops where it stopped before, and finds the same there unless that is the place that
has changed. -/
theorem IsStride.of_sameBut {halt : Halt} (h : SameBut t u l) (hs : t.IsStride aim halt m cs) :
    ∃ halt', u.IsStride aim halt' m cs ∧ halt'.stop = halt.stop ∧
      (halt.stop ≠ .inl l → halt' = halt) := by
  induction hs with
  | here hhalt => exact ⟨halt, .here hhalt, rfl, fun _ => rfl⟩
  | stay hm hc _ ih =>
    obtain ⟨halt', hs', hhalt'⟩ := ih
    exact ⟨halt', .stay (h.goesOn hm) hc hs', hhalt'⟩
  | up hm _ ih =>
    obtain ⟨halt', hs', hhalt'⟩ := ih
    exact ⟨halt', .up (h.goesOn hm) hs', hhalt'⟩
  | @down m c cs e hm hc he hlink hs ih =>
    by_cases hl : c :: m = l
    · subst hl
      obtain ⟨rfl, rfl⟩ := hs.of_isEnd h.isEnd
      obtain ⟨halt', hs', hstop⟩ := exists_isStride_of_isEnd aim (h.goesOn hm) hc h.isEnd'
      exact ⟨halt', hs', hstop, fun hne => absurd rfl hne⟩
    · obtain ⟨halt', hs', hhalt'⟩ := ih
      exact ⟨halt', .down (h.goesOn hm) hc ((h.entryAt_ne _ hl).trans he) hlink hs', hhalt'⟩
  | @vacant m c hm hc hnone hhalt =>
    by_cases hl : c :: m = l
    · subst hl
      obtain ⟨halt', hs', hstop⟩ := exists_isStride_of_isEnd aim (h.goesOn hm) hc h.isEnd'
      rw [hhalt]
      exact ⟨halt', hs', hstop, fun hne => absurd rfl hne⟩
    · exact ⟨halt, .vacant (h.goesOn hm) hc ((h.entryAt_ne _ hl).trans hnone) hhalt, rfl,
        fun _ => rfl⟩
  | @own m c target hm hc he haim hhalt =>
    have hl : c :: m ≠ l := fun heq => h.isEnd.not_link target (heq ▸ he)
    exact ⟨halt, .own (h.goesOn hm) hc ((h.entryAt_ne _ hl).trans he) haim hhalt, rfl, fun _ => rfl⟩
  | @link m c cs target hm hc he haim hhalt =>
    have hl : c :: m ≠ l := fun heq => h.isEnd.not_link target (heq ▸ he)
    exact ⟨halt, .link (h.goesOn hm) hc ((h.entryAt_ne _ hl).trans he) haim hhalt, rfl,
      fun _ => rfl⟩

theorem IsWalk.of_sameBut {links : Nat} {p : Place} (h : SameBut t u l)
    (hw : t.IsWalk aim p links m cs) :
    ∃ p', u.IsWalk aim p' links m cs ∧ p'.loc = p.loc ∧ (p.loc ≠ l → p' = p) := by
  induction hw with
  | place hs =>
    obtain ⟨halt', hs', hstop, hhalt'⟩ := hs.of_sameBut h
    cases halt' with
    | link dir target rest => cases hstop
    | place p' =>
      refine ⟨p', .place hs', Sum.inl.inj hstop, fun hp => ?_⟩
      exact Halt.place.inj (hhalt' fun hl => hp (Sum.inl.inj hl))
  | link hs _ ih =>
    obtain ⟨p', hw', hp'⟩ := ih
    obtain ⟨halt', hs', -, hhalt'⟩ := hs.of_sameBut h
    obtain rfl := hhalt' nofun
    exact ⟨p', .link hs' hw', hp'⟩

theorem locate_eq_some_iff_exists {q : Path} :
    t.locate aim q = some l ↔ ∃ p, t.resolve aim q = .ok p ∧ p.loc = l := by
  rw [locate]
  cases t.resolve aim q <;> simp [Except.toOption]

theorem loc_placeAt (t : Tree) (l : Loc) : (t.placeAt l).loc = l := by
  cases l with
  | nil => rfl
  | cons c d =>
    rw [placeAt, placeIn]
    split <;> rfl

theorem locate_eq_some_iff (ht : t.IsLinkFree) {q : Path}
    (hq : Path.isFileName (Path.leaf q) = true) : t.locate aim q = some l ↔ t.Reaches q l := by
  rw [locate_eq_some_iff_exists]
  constructor
  · rintro ⟨p, hp, rfl⟩
    obtain ⟨m, hm, rfl⟩ := (resolve_eq_ok_iff ht hq).1 hp
    rwa [loc_placeAt]
  · intro h
    exact ⟨t.placeAt l, (resolve_eq_ok_iff ht hq).2 ⟨l, h, rfl⟩, loc_placeAt t l⟩

/-- Where a path leads does not depend on what is at the end of one. -/
theorem locate_congr (h : SameBut t u l) (aim : Aim) (q : Path) :
    u.locate aim q = t.locate aim q := by
  have hle {t u : Tree} (h : SameBut t u l) {m : Loc} (hm : t.locate aim q = some m) :
      u.locate aim q = some m := by
    obtain ⟨p, hp, rfl⟩ := locate_eq_some_iff_exists.1 hm
    obtain ⟨hfault, hw⟩ := resolve_eq_ok_iff_isWalk.1 hp
    obtain ⟨p', hw', hloc, -⟩ := hw.of_sameBut h
    rw [← h.workDir] at hw'
    exact locate_eq_some_iff_exists.2 ⟨p', resolve_eq_ok_iff_isWalk.2 ⟨hfault, hw'⟩, hloc⟩
  exact Option.ext fun m => ⟨hle h.symm, hle h⟩

theorem look_congr (h : SameBut t u l) {q : Path} (hq : t.locate aim q ≠ some l) :
    u.look aim q = t.look aim q := by
  rw [look, look, locate_congr h]
  cases hm : t.locate aim q with
  | none => rfl
  | some m =>
    have hml : m ≠ l := fun heq => hq (heq ▸ hm)
    exact h.entryAt_ne m hml

/-! ## What is found elsewhere -/

/-- A path that leads elsewhere finds there what it found before. -/
theorem resolve_of_sameBut (h : SameBut t u l) {q : Path} {p : Place} (hp : p.loc ≠ l)
    (hr : t.resolve aim q = .ok p) : u.resolve aim q = .ok p := by
  rw [resolve_eq_ok_iff_isWalk] at hr ⊢
  obtain ⟨p', hw', -, hp'⟩ := hr.2.of_sameBut h
  rw [h.workDir, ← hp' hp]
  exact ⟨hr.1, hw'⟩

theorem openRead_of_sameBut (h : SameBut t u l) {q : Path} (hm : m ≠ l)
    (hopen : t.openRead q = .ok m) : u.openRead q = .ok m := by
  unfold openRead at hopen
  split at hopen
  · cases hopen
  · cases hopen
  · next m' hr =>
    obtain rfl : m' = m := Except.ok.inj hopen
    have hfound : (Place.found m').loc ≠ l := hm
    rw [openRead, resolve_of_sameBut h hfound hr]

/-! ## What a path leads to -/

/-- What is found is there and is no link, and what is vacant is free in a directory. -/
def Place.IsFinal (t : Tree) : Place → Prop
  | .found l => t.entryAt l ≠ none ∧ ∀ target, t.entryAt l ≠ some (.link target)
  | .vacant dir name => t.entryAt dir = some .dir ∧ t.entryAt (name :: dir) = none

theorem isFinal_found_of_isDir (h : t.entryAt l = some .dir) : (Place.found l).IsFinal t := by
  constructor <;> simp [h]

theorem IsStride.isFinal {p : Place} (h : t.IsStride aim (.place p) l cs) (haim : aim ≠ .entry)
    (hl : cs = [] → (Place.found l).IsFinal t) : p.IsFinal t := by
  induction h with
  | here hhalt =>
    cases hhalt
    exact hl rfl
  | stay hgoes _ _ ih => exact ih fun _ => isFinal_found_of_isDir hgoes.1
  | up hgoes _ ih => exact ih fun _ => isFinal_found_of_isDir (t.isDir_tail (by simp [hgoes.1]))
  | down _ _ he hlink _ ih =>
    refine ih fun _ => ⟨by simp [he], fun target => ?_⟩
    rw [he]
    rintro ⟨rfl⟩
    cases hlink
  | vacant hgoes _ hnone hhalt =>
    cases hhalt
    exact ⟨hgoes.1, hnone⟩
  | own _ _ _ hentry => exact absurd hentry haim
  | link _ _ _ _ hhalt => cases hhalt

theorem IsStride.isDir_of_link {dir : Loc} {target : Path} {rest : List Name}
    (h : t.IsStride aim (.link dir target rest) l cs) : t.entryAt dir = some .dir := by
  induction h with
  | here hhalt => cases hhalt
  | stay _ _ _ ih => exact ih
  | up _ _ ih => exact ih
  | down _ _ _ _ _ ih => exact ih
  | vacant _ _ _ hhalt => cases hhalt
  | own _ _ _ _ hhalt => cases hhalt
  | link hl _ _ _ hhalt =>
    cases hhalt
    exact hl.1

theorem isDir_startOf {dir : Loc} (h : t.entryAt dir = some .dir) (q : Path) :
    t.entryAt (startOf q dir) = some .dir := by
  rw [startOf]
  split
  · rfl
  · exact h

theorem IsWalk.isFinal {links : Nat} {p : Place} (h : t.IsWalk aim p links l cs)
    (haim : aim ≠ .entry) (hl : cs = [] → (Place.found l).IsFinal t) : p.IsFinal t := by
  induction h with
  | place hs => exact hs.isFinal haim hl
  | @link _ _ _ target _ _ hs _ ih =>
    -- A way that follows a link begins anew in a directory.
    exact ih fun _ => isFinal_found_of_isDir (isDir_startOf hs.isDir_of_link target)

theorem isFinal_of_resolve (haim : aim ≠ .entry) {q : Path} {p : Place}
    (h : t.resolve aim q = .ok p) : p.IsFinal t := by
  obtain ⟨hfault, hw⟩ := resolve_eq_ok_iff_isWalk.1 h
  have hq : q ≠ [] := by
    rintro rfl
    cases hfault
  exact hw.isFinal haim fun hnil => absurd hnil (Path.steps_ne_nil aim hq)

/-! ## Files -/

theorem SameBut.refl (h : t.IsEnd l) : SameBut t t l :=
  ⟨rfl, fun _ _ => rfl, h, h⟩

theorem sameBut_put_file (h : t.IsEnd l) (content : Bytes) (x : Bool) :
    SameBut t (t.put l (.file content x)) l where
  workDir := workDir_put ..
  entryAt_ne m hm := entryAt_put_ne hm _
  isEnd := h
  isEnd' := by
    obtain hl | hl := entryAt_put_eq_or t l (.file content x) l
    · constructor
      · exact hl ▸ h.not_dir
      · exact hl ▸ h.not_link
    · constructor <;> simp [hl]

/-- Where a file is created: at the place to which its path leads. A device is kept there, and
all else makes way for an empty file. -/
structure Creates (t : Tree) (q : Path) (u : Tree) (l : Loc) : Prop where
  locate_eq : t.locate .creation q = some l
  isEnd : t.IsEnd l
  hasRoom : t.HasRoom l
  outcome : (∃ v, t.entryAt l = some (.device v) ∧ u = t) ∨
    (∀ v, t.entryAt l ≠ some (.device v)) ∧ ∃ x, u = t.put l (.file [] x)

theorem creates {q : Path} (h : t.create q = .ok (u, l)) : t.Creates q u l := by
  unfold create at h
  cases hr : t.resolve .creation q with
  | error e => simp [hr] at h
  | ok p =>
    have hfinal := isFinal_of_resolve (by decide) hr
    have hloc : t.locate .creation q = some p.loc := by
      rw [locate, hr]
      rfl
    rw [hr] at h
    cases p with
    | vacant dir name =>
      cases h
      obtain ⟨hdir, hnone⟩ : t.entryAt dir = some .dir ∧ t.entryAt (name :: dir) = none := hfinal
      exact ⟨hloc, by constructor <;> simp [hnone], hasRoom_of_entryAt_eq_none hdir hnone,
        .inr ⟨by simp [hnone], false, rfl⟩⟩
    | found m =>
      obtain ⟨hsome, hlink⟩ := hfinal
      have hdir : t.entryAt m ≠ some .dir := by
        intro hdir
        simp [hdir] at h
      suffices hl : m = l ∧ ((∃ v, t.entryAt m = some (.device v) ∧ u = t) ∨
          (∀ v, t.entryAt m ≠ some (.device v)) ∧ ∃ x, u = t.put m (.file [] x)) by
        obtain ⟨rfl, hu⟩ := hl
        exact ⟨hloc, ⟨hdir, hlink⟩, ⟨t.isDir_tail hsome, hdir⟩, hu⟩
      cases he : t.entryAt m with
      | none => exact absurd he hsome
      | some e =>
        cases e with
        | dir => exact absurd he hdir
        | link target => exact absurd he (hlink target)
        | device v =>
          simp only [he, Except.ok.injEq, Prod.mk.injEq] at h
          exact ⟨h.2, .inl ⟨v, rfl, h.1.symm⟩⟩
        | file content x =>
          simp only [he, Except.ok.injEq, Prod.mk.injEq] at h
          exact ⟨h.2, .inr ⟨nofun, x, h.1.symm⟩⟩
        | program name =>
          simp only [he, Except.ok.injEq, Prod.mk.injEq] at h
          exact ⟨h.2, .inr ⟨nofun, false, h.1.symm⟩⟩

theorem Creates.commit_eq {q : Path} (h : t.Creates q u l) (s : Sink) :
    (∃ v, t.entryAt l = some (.device v)) ∧ u.commit l s = t ∨
      (∀ v, t.entryAt l ≠ some (.device v)) ∧ ∃ x, u.commit l s = t.put l (.file s.written x) := by
  obtain ⟨v, hv, rfl⟩ | ⟨hdevice, x, rfl⟩ := h.outcome
  · exact .inl ⟨⟨v, hv⟩, by simp only [commit, hv]⟩
  · exact .inr ⟨hdevice, x, commit_put h.hasRoom s⟩

/-- A file that is created and written changes the place to which its path leads, and no
more. -/
theorem Creates.sameBut {q : Path} (h : t.Creates q u l) (s : Sink) :
    SameBut t (u.commit l s) l := by
  obtain ⟨-, hu⟩ | ⟨-, x, hu⟩ := h.commit_eq s
  · rw [hu]
    exact .refl h.isEnd
  · rw [hu]
    exact sameBut_put_file h.isEnd _ x

/-- A path leads to a file. -/
def IsFileAt (t : Tree) (aim : Aim) (q : Path) : Prop :=
  ∃ e, t.look aim q = some e ∧ e.isFile = true

/-- Where a file has been created and written, a path leads to a file if it did before, or if
it leads to the new one. Only a device is not made a file. -/
theorem isFileAt_commit_iff {q r : Path} (h : t.create q = .ok (u, l)) (s : Sink) :
    (u.commit l s).IsFileAt aim r ↔ t.IsFileAt aim r ∨
      t.locate aim r = t.locate .creation q ∧ ∀ v, t.look aim r ≠ some (.device v) := by
  have hc := creates h
  have hsame := hc.sameBut s
  by_cases hr : t.locate aim r = some l
  · have hlook (v : Tree) (hv : v.locate aim r = t.locate aim r) :
        v.look aim r = v.entryAt l := by
      rw [look, hv, hr]
      rfl
    rw [IsFileAt, IsFileAt, hlook _ (locate_congr hsame aim r), hlook t rfl, hc.locate_eq]
    obtain ⟨⟨v, hv⟩, hu⟩ | ⟨hdevice, x, hu⟩ := hc.commit_eq s
    · simp [hu, hv, Entry.isFile]
    · rw [hu, entryAt_put_self hc.hasRoom]
      exact iff_of_true ⟨_, rfl, rfl⟩ (.inr ⟨hr, hdevice⟩)
  · rw [IsFileAt, look_congr hsame hr, ← IsFileAt, hc.locate_eq]
    exact (or_iff_left fun hnew => hr hnew.1).symm

end Tree

end StoreLog
