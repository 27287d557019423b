-- SUMMARY: The entries of a manifest, with the numbers of their lines.
import StoreLog.Text.Basic

/-!
# Manifests

A manifest lists one store on a line. White space around a line and blank lines
do not count, but blank lines between others are counted.
-/

namespace StoreLog.Manifest

structure Entry where
  /-- The path of the store, as listed. -/
  source : Text
  /-- The line of the trimmed manifest, from one. -/
  line : Nat
deriving DecidableEq, Repr

/-- The entries of lines that are numbered from `n` on. -/
def entriesFrom (n : Nat) : List Text → List Entry
  | [] => []
  | l :: ls =>
    let source := Text.trim l
    if source.isEmpty then entriesFrom (n + 1) ls
    else ⟨source, n⟩ :: entriesFrom (n + 1) ls

def parse (s : Text) : List Entry :=
  entriesFrom 1 ((Text.trim s).splitOn '\n')

end StoreLog.Manifest
