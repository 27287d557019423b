-- SUMMARY: What a program prints to its two streams.
import StoreLog.Text.Basic

/-!
# Printed output

What programs have printed: results on one stream, and messages about errors on
another.
-/

namespace StoreLog

structure Printed where
  out : Bytes := []
  err : Bytes := []
deriving DecidableEq, Repr

def Printed.append (p q : Printed) : Printed :=
  ⟨p.out ++ q.out, p.err ++ q.err⟩

instance : Append Printed := ⟨Printed.append⟩

end StoreLog
