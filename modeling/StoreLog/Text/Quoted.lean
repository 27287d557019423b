-- SUMMARY: Texts in quotes, with escapes, as messages show them.
import StoreLog.Text.Printable

/-!
# Quoted texts

How a text is shown inside a message: between double quotes, with a short or a
numeric escape for every character that could not be told from its surroundings.
-/

namespace StoreLog.Text

/-- The digits of `n` in base sixteen, in lower case and without leading zeros. -/
def hexDigits (n : Nat) : Text :=
  Nat.toDigits 16 n

def quoteChar (c : Char) : Text :=
  if c = '"' then ['\\', '"']
  else if c = '\\' then ['\\', '\\']
  else if c = '\n' then ['\\', 'n']
  else if c = '\r' then ['\\', 'r']
  else if c = '\t' then ['\\', 't']
  else if c = '\x00' then ['\\', '0']
  else if isPrintable c then [c]
  else ['\\', 'u', '\x7b'] ++ hexDigits c.toNat ++ ['\x7d']

def quote (s : Text) : Text :=
  ['"'] ++ s.flatMap quoteChar ++ ['"']

end StoreLog.Text
