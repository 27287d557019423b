-- SUMMARY: What creating and writing a file leaves of a tree.
import StoreLog.Proofs.Tree.Frame

/-!
# Writing at a path

A file is created and written at the place to which its path leads, if it leads anywhere.
All other places are as before, and all paths lead where they led before.
-/

namespace StoreLog.Tree

variable {t u v : Tree} {aim : Aim} {q : Path} {l m : Loc} {content : Bytes} {x : Bool}

/-- What creating a file at a path and writing it can leave of a tree. -/
def Writes (t : Tree) (q : Path) (v : Tree) : Prop :=
  v = t ∨ ∃ u l s, t.create q = .ok (u, l) ∧ v = u.commit l s

theorem Writes.refl (t : Tree) (q : Path) : t.Writes q t := .inl rfl

theorem Writes.commit (h : t.create q = .ok (u, l)) (s : Sink) : t.Writes q (u.commit l s) :=
  .inr ⟨u, l, s, h, rfl⟩

/-- Writing puts a file where the path leads, or changes nothing. -/
theorem Writes.eq_or_put (h : t.Writes q v) :
    v = t ∨ ∃ l content x, t.locate .creation q = some l ∧ t.IsEnd l ∧
      v = t.put l (.file content x) := by
  obtain rfl | ⟨u, l, s, hcreate, rfl⟩ := h
  · exact .inl rfl
  · have hc := creates hcreate
    obtain ⟨-, hu⟩ | ⟨-, x, hu⟩ := hc.commit_eq s
    · exact .inl hu
    · exact .inr ⟨l, _, x, hc.locate_eq, hc.isEnd, hu⟩

theorem Writes.sameBut (h : t.Writes q v) :
    v = t ∨ ∃ l, t.locate .creation q = some l ∧ SameBut t v l := by
  obtain rfl | ⟨l, content, x, hl, hend, rfl⟩ := h.eq_or_put
  · exact .inl rfl
  · exact .inr ⟨l, hl, sameBut_put_file hend content x⟩

theorem SameBut.sameDirs (h : SameBut t u l) : SameDirs t u where
  workDir := h.workDir.symm
  isDir m := (h.isDir_iff m).symm

theorem Writes.sameDirs (h : t.Writes q v) : SameDirs t v := by
  obtain rfl | ⟨l, -, hsame⟩ := h.sameBut
  · exact .refl v
  · exact hsame.sameDirs

/-- Nothing changes where the path does not lead. -/
theorem Writes.entryAt_eq (h : t.Writes q v) (hm : t.locate .creation q ≠ some m) :
    v.entryAt m = t.entryAt m := by
  obtain rfl | ⟨l, hl, hsame⟩ := h.sameBut
  · rfl
  · exact hsame.entryAt_ne m fun heq => hm (heq ▸ hl)

theorem Writes.locate_eq (h : t.Writes q v) (aim : Aim) (r : Path) :
    v.locate aim r = t.locate aim r := by
  obtain rfl | ⟨l, -, hsame⟩ := h.sameBut
  · rfl
  · exact locate_congr hsame aim r

theorem Writes.isLinkFree (h : t.Writes q v) (ht : t.IsLinkFree) : v.IsLinkFree := by
  obtain rfl | ⟨l, content, x, -, -, rfl⟩ := h.eq_or_put
  · exact ht
  · exact ht.put l rfl

/-! ## The file at the path -/

theorem hasRoom_of_file (h : t.entryAt l = some (.file content x)) : t.HasRoom l where
  isDir_tail := t.isDir_tail (by simp [h])
  not_dir := by simp [h]

/-- A file to which a path leads is emptied where it is. -/
theorem create_of_locate (hl : t.locate .creation q = some l)
    (hfile : t.entryAt l = some (.file content x)) :
    t.create q = .ok (t.put l (.file [] x), l) := by
  obtain ⟨p, hr, rfl⟩ := locate_eq_some_iff_exists.1 hl
  cases p with
  | vacant dir name =>
    obtain ⟨-, hw⟩ := resolve_eq_ok_iff_isWalk.1 hr
    rw [Place.loc, hw.of_vacant.2] at hfile
    cases hfile
  | found m =>
    simp only [Place.loc] at hfile ⊢
    simp only [create, hr, hfile]

/-! ## Writing again -/

theorem Creates.reaches (h : t.Creates q u l) (ht : t.IsLinkFree)
    (hq : Path.isFileName (Path.leaf q) = true) : t.Reaches q l :=
  (locate_eq_some_iff ht hq).1 h.locate_eq

theorem entryAt_of_create (h : t.create q = .ok (u, l)) (hm : m ≠ l) :
    u.entryAt m = t.entryAt m := by
  obtain ⟨v, -, rfl⟩ | ⟨-, x, rfl⟩ := (creates h).outcome
  · rfl
  · exact entryAt_put_ne hm _

/-- A file that has been created and written is created again at its place, and is as it was
when the same is written to it. -/
theorem create_again (ht : t.IsLinkFree) (hq : Path.isFileName (Path.leaf q) = true)
    (h : t.create q = .ok (u, l)) (s : Sink) (hv : v.IsLinkFree) (hdirs : SameDirs t v)
    (hl : v.entryAt l = (u.commit l s).entryAt l) :
    ∃ v', v.create q = .ok (v', l) ∧ v'.sinkAt l = u.sinkAt l ∧ v'.commit l s = v ∧
      ∀ m, m ≠ l → v'.entryAt m = v.entryAt m := by
  have hc := creates h
  have hreaches := (reaches_congr hdirs).1 (hc.reaches ht hq)
  obtain ⟨d, hd, rfl⟩ | ⟨-, x, rfl⟩ := hc.outcome
  · have hsame : u.commit l s = u := by simp only [commit, hd]
    rw [hsame] at hl
    have hvd : v.entryAt l = some (.device d) := hl.trans hd
    have hfound : v.resolve .creation q = .ok (.found l) :=
      resolve_of_reaches hv hq hreaches (by simp [hvd]) .creation
    refine ⟨v, ?_, ?_, ?_, fun _ _ => rfl⟩
    · simp only [create, hfound, hvd]
    · rw [sinkAt, sinkAt, hl]
    · simp only [commit, hvd]
  · rw [commit_put hc.hasRoom, entryAt_put_self hc.hasRoom] at hl
    have hroom := hasRoom_of_file hl
    have hfound : v.resolve .creation q = .ok (.found l) :=
      resolve_of_reaches hv hq hreaches (by simp [hl]) .creation
    refine ⟨v.put l (.file [] x), ?_, ?_, ?_, fun m hm => entryAt_put_ne hm _⟩
    · simp only [create, hfound, hl]
    · rw [sinkAt_put hroom, sinkAt_put hc.hasRoom]
    · rw [commit_put hroom, put_of_entryAt hl]

end StoreLog.Tree
