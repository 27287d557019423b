-- SUMMARY: Values that have another type than the one expected, and how messages say so.
import StoreLog.Text.Quoted

/-!
# Mismatches

A value of the wrong form: what a decoder found, and what it expected there.
-/

namespace StoreLog

inductive Found
  | null
  | boolean (value : Bool)
  | integer (value : Int)
  /-- The number as its format writes it. -/
  | floating (digits : Text)
  | string (value : Text)
  | sequence
  | map
deriving DecidableEq, Repr

def Found.describe : Found → String
  | .null => "null"
  | .boolean b => s!"boolean `{b}`"
  | .integer n => s!"integer `{n}`"
  | .floating digits => s!"floating point `{String.ofList digits}`"
  | .string s => s!"string {String.ofList s.quote}"
  | .sequence => "sequence"
  | .map => "map"

inductive Mismatch
  | wrongType (found : Found) (expected : String)
  | missingField (name : String)
  | wrongLength (length : Nat) (expected : String)
deriving DecidableEq, Repr

def Mismatch.message : Mismatch → String
  | .wrongType found expected => s!"invalid type: {found.describe}, expected {expected}"
  | .missingField name => s!"missing field `{name}`"
  | .wrongLength length expected => s!"invalid length {length}, expected {expected}"

end StoreLog
