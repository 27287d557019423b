-- SUMMARY: The exact conditions under which a configuration loads.
import StoreLog.Config.Load

/-!
# Which configurations load

A file that the user names is loaded if it reads as text and the text is accepted. The file
at the usual place never stands in the way: it is as if it were not there if it could not be
loaded.
-/

namespace StoreLog.Config

variable {t : Tree} {p : Path}

/-- What a path leads to reads as text and is accepted as a configuration. -/
def IsAccepted (t : Tree) (p : Path) : Prop :=
  ∃ content raw, t.readText p = .ok content ∧ RawConfig.parse content = .ok raw

theorem not_isAccepted_of_readText {e : IoError} (h : t.readText p = .error e) :
    ¬IsAccepted t p := by
  rintro ⟨content, -, hcontent, -⟩
  cases h.symm.trans hcontent

theorem readFile_of_readText {content : Text} (h : t.readText p = .ok content) :
    readFile t p = (RawConfig.parse content).mapError (.toml p) := by
  rw [readFile, h]

theorem isAccepted_iff : IsAccepted t p ↔ ∃ raw, readFile t p = .ok raw := by
  cases h : t.readText p with
  | error e =>
    refine iff_of_false (not_isAccepted_of_readText h) fun ⟨raw, hraw⟩ => ?_
    rw [readFile, h] at hraw
    cases hraw
  | ok content =>
    rw [readFile_of_readText h]
    cases hp : RawConfig.parse content with
    | error e =>
      refine iff_of_false ?_ fun ⟨raw, hraw⟩ => by cases hraw
      rintro ⟨_, raw, hcontent, hraw⟩
      cases h.symm.trans hcontent
      cases hp.symm.trans hraw
    | ok raw => exact iff_of_true ⟨content, raw, h, hp⟩ ⟨raw, rfl⟩

theorem loadFile_fails_iff : (∃ e, (loadFile t p).result = .error e) ↔ ¬IsAccepted t p := by
  rw [isAccepted_iff, loadFile]
  cases readFile t p <;> simp

/-- A file that may be missing is passed over if it is not accepted. -/
theorem load_of_not_isAccepted (h : ¬IsAccepted t p) : (load t p).result.config = .default := by
  rw [isAccepted_iff] at h
  rw [load]
  split
  · rfl
  · rfl
  · next raw hraw => exact absurd ⟨raw, hraw⟩ h

theorem loadFor_fails_iff (t : Tree) (dirs : Option UserDirs) (named : Option Path) :
    (∃ e, (loadFor t dirs named).result = .error e) ↔ ∃ p, named = some p ∧ ¬IsAccepted t p := by
  cases named with
  | none => simp [loadFor]
  | some p => simp [loadFor, loadFile_fails_iff]

theorem loadFor_none (t : Tree) (dirs : Option UserDirs) :
    (loadFor t dirs none).result = .ok (load t (PlatformPaths.resolve dirs).configFile).result :=
  rfl

end StoreLog.Config
