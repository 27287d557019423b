-- SUMMARY: File trees in which whatever there is stands in a directory.
import StoreLog.Path
import StoreLog.Sorted.Map

/-!
# File trees

A file tree is a finite map from places to what is there, and a place to which
relative paths refer. A place is the list of the names on the way to it from the
root, the innermost name first, so that the tail of a place is the directory
around it. The root itself is always a directory, and whatever there is stands in
a directory: an entry is put only where there is room for it.
-/

namespace StoreLog

abbrev Name := Bytes

abbrev Loc := List Name

/-- The devices that matter: one takes all and gives nothing, one is always full. -/
inductive Device
  | null
  | full
deriving DecidableEq, Repr

inductive Entry
  /-- A file, which commands can be started from if it is executable. -/
  | file (content : Bytes) (executable : Bool := false)
  | dir
  | link (target : Path)
  | device (device : Device)
  /-- A program that belongs to the system. -/
  | program (name : Name)
deriving DecidableEq, Repr

def Entry.isLink : Entry → Bool
  | .link _ => true
  | _ => false

structure Tree where
  /-- What there is besides the root. -/
  entries : SortedMap Loc Entry
  workDir : Loc := []
  /-- Whatever there is stands in a directory. -/
  stands : ∀ l e, entries.get? l = some e →
    l ≠ [] ∧ (l.tail = [] ∨ entries.get? l.tail = some .dir)

namespace Tree

/-- What is at a place. -/
def entryAt (t : Tree) (l : Loc) : Option Entry :=
  if l = [] then some .dir else t.entries.get? l

@[simp] theorem entryAt_root (t : Tree) : t.entryAt [] = some .dir := rfl

theorem entryAt_of_ne_root {l : Loc} (hl : l ≠ []) (t : Tree) : t.entryAt l = t.entries.get? l :=
  if_neg hl

theorem get?_root (t : Tree) : t.entries.get? [] = none := by
  cases h : t.entries.get? [] with
  | none => rfl
  | some e => exact absurd rfl (t.stands [] e h).1

/-- What is there stands in a directory. -/
theorem isDir_tail (t : Tree) {l : Loc} (h : t.entryAt l ≠ none) :
    t.entryAt l.tail = some .dir := by
  by_cases hl : l = []
  · rw [hl]
    rfl
  · rw [entryAt_of_ne_root hl, Option.ne_none_iff_exists'] at h
    obtain ⟨e, he⟩ := h
    rw [entryAt]
    split
    · rfl
    · next htail => exact (t.stands l e he).2.resolve_left htail

/-- Two trees are equal if they look alike everywhere and have one work directory. -/
theorem ext {t u : Tree} (hw : t.workDir = u.workDir) (h : ∀ l, t.entryAt l = u.entryAt l) :
    t = u := by
  have hentries : t.entries = u.entries := by
    refine SortedMap.ext fun l => ?_
    by_cases hl : l = []
    · rw [hl, get?_root, get?_root]
    · rw [← entryAt_of_ne_root hl, ← entryAt_of_ne_root hl, h]
  cases t
  cases u
  cases hw
  cases hentries
  rfl

/-! ## Putting entries -/

/-- There is room for an entry: it would stand in a directory and not in the place of one. -/
structure HasRoom (t : Tree) (l : Loc) : Prop where
  isDir_tail : t.entryAt l.tail = some .dir
  not_dir : t.entryAt l ≠ some .dir

instance (t : Tree) (l : Loc) : Decidable (t.HasRoom l) :=
  decidable_of_iff (t.entryAt l.tail = some .dir ∧ t.entryAt l ≠ some .dir)
    ⟨fun h => ⟨h.1, h.2⟩, fun h => ⟨h.1, h.2⟩⟩

theorem HasRoom.ne_root {t : Tree} {l : Loc} (h : t.HasRoom l) : l ≠ [] := by
  rintro rfl
  exact h.not_dir rfl

theorem HasRoom.stands {t : Tree} {l : Loc} (h : t.HasRoom l) (e : Entry) (m : Loc) (f : Entry)
    (hm : (t.entries.insert l e).get? m = some f) :
    m ≠ [] ∧ (m.tail = [] ∨ (t.entries.insert l e).get? m.tail = some .dir) := by
  have htail : m ≠ [] ∧ t.entryAt m.tail = some .dir := by
    rw [SortedMap.get?_insert] at hm
    split at hm
    · next heq => exact heq ▸ ⟨h.ne_root, h.isDir_tail⟩
    · have hroot := (t.stands m f hm).1
      exact ⟨hroot, t.isDir_tail (by simp [entryAt_of_ne_root hroot, hm])⟩
  refine ⟨htail.1, Decidable.or_iff_not_imp_left.2 fun hroot => ?_⟩
  have hne : m.tail ≠ l := fun heq => h.not_dir (heq ▸ htail.2)
  rw [SortedMap.get?_insert, if_neg hne, ← entryAt_of_ne_root hroot, htail.2]

/-- Put an entry where there is room for it. -/
def put (t : Tree) (l : Loc) (e : Entry) : Tree :=
  if h : t.HasRoom l then { t with entries := t.entries.insert l e, stands := h.stands e } else t

variable {t : Tree} {l m : Loc}

@[simp] theorem workDir_put (t : Tree) (l : Loc) (e : Entry) : (t.put l e).workDir = t.workDir := by
  unfold put
  split <;> rfl

theorem entryAt_put_self (h : t.HasRoom l) (e : Entry) : (t.put l e).entryAt l = some e := by
  rw [put, dif_pos h, entryAt_of_ne_root h.ne_root, SortedMap.get?_insert_self]

theorem entryAt_put_ne (hm : m ≠ l) (e : Entry) : (t.put l e).entryAt m = t.entryAt m := by
  unfold put
  split
  · simp only [entryAt, SortedMap.get?_insert, if_neg hm]
  · rfl

theorem put_of_not_hasRoom (h : ¬t.HasRoom l) (e : Entry) : t.put l e = t :=
  dif_neg h

/-! ## Removing entries -/

theorem stands_filterKeys (t : Tree) (l m : Loc) (f : Entry)
    (hm : (t.entries.filterKeys fun x => !l.isSuffixOf x).get? m = some f) :
    m ≠ [] ∧ (m.tail = [] ∨
      (t.entries.filterKeys fun x => !l.isSuffixOf x).get? m.tail = some .dir) := by
  rw [SortedMap.get?_filterKeys] at hm
  split at hm
  · next hbelow =>
    obtain ⟨hroot, htail⟩ := t.stands m f hm
    refine ⟨hroot, htail.imp_right fun hdir => ?_⟩
    -- What is below the tail is below the place.
    have hkept : (!l.isSuffixOf m.tail) = true := by
      simp only [Bool.not_eq_true', ← Bool.not_eq_true, List.isSuffixOf_iff_suffix] at hbelow ⊢
      exact fun hsuffix => hbelow (hsuffix.trans (List.tail_suffix m))
    rw [SortedMap.get?_filterKeys, if_pos hkept, hdir]
  · cases hm

/-- Take a place away, with all that is below it. -/
def remove (t : Tree) (l : Loc) : Tree where
  entries := t.entries.filterKeys fun x => !l.isSuffixOf x
  workDir := t.workDir
  stands := t.stands_filterKeys l

/-- A tree without symbolic links. -/
def IsLinkFree (t : Tree) : Prop :=
  ∀ l target, t.entryAt l ≠ some (.link target)

/-! ## Views -/

/-- Names from the outside in, with slashes between them. -/
def pathOf (names : List Name) : Path :=
  [Path.slash].intercalate names

/-- What is below the work directory, by relative paths. -/
def listing (t : Tree) : List (Path × Entry) :=
  t.entries.entries.filterMap fun (l, e) =>
    match t.workDir.isSuffixOf? l with
    | some (n :: names) => some (pathOf (n :: names).reverse, e)
    | _ => none

def empty (workDir : Loc) : Tree where
  entries := ∅
  workDir := workDir
  stands := by simp

/-- A tree with an empty work directory and the devices at their usual places. -/
def fresh : Tree :=
  let dev := Path.ofText ['d', 'e', 'v']
  let work := Path.ofText ['w', 'o', 'r', 'k']
  ((((empty [work]).put [dev] .dir).put [Path.ofText ['n', 'u', 'l', 'l'], dev]
    (.device .null)).put [Path.ofText ['f', 'u', 'l', 'l'], dev] (.device .full)).put [work] .dir

end Tree

end StoreLog
