-- SUMMARY: Texts that stand for bytes, one character for each.
import StoreLog.Text.Basic

/-!
# Octets

A string of bytes seen as a text that has one character for each byte. Shells and
programs work on bytes, but what they look for are characters.
-/

namespace StoreLog.Octets

def text (s : Bytes) : Text :=
  s.map fun b => Char.ofNat b.toNat

/-- The bytes of a text whose characters all stand for bytes. -/
def bytes (s : Text) : Bytes :=
  s.map fun c => UInt8.ofNat c.toNat

end StoreLog.Octets
