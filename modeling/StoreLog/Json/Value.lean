-- SUMMARY: The values of JSON, with objects as lists of members.
import StoreLog.Text.Basic
import StoreLog.Decimal.Basic

/-!
# JSON values

The values that a JSON text denotes. An object keeps its members as they are
written; where a name is repeated, the last member counts.
-/

namespace StoreLog.Json

/-- A number is an integer if it is written as one and fits in 64 bits, signed or
unsigned; minus zero and every other number is a decimal. -/
inductive Number
  | integer (value : Int)
  | decimal (value : Decimal)
deriving DecidableEq, Repr

inductive Value
  | null
  | boolean (value : Bool)
  | number (value : Number)
  | string (value : Text)
  | array (items : List Value)
  | object (members : List (Text × Value))

/-- The member that counts for a name. -/
def lookup? (members : List (Text × Value)) (name : Text) : Option Value :=
  (members.reverse.find? (·.1 = name)).map (·.2)

end StoreLog.Json
