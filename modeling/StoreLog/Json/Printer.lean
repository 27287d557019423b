-- SUMMARY: JSON values printed without blanks.
import StoreLog.Json.Quoted
import StoreLog.Json.Value

/-!
# Writing JSON texts

`render` writes a value without blanks. Strings escape only what must not stand
between quotes, members keep their order, and a decimal is its significand with
an exponent.
-/

namespace StoreLog.Json

def Number.render : Number → Text
  | .integer n => (toString n).toList
  | .decimal d =>
    (if d.negative then ['-'] else []) ++ Nat.toDigits 10 d.significand ++ ['e'] ++
      (toString d.exponent).toList

/-- Texts with a comma between each and the next. -/
def commaSeparated : List Text → Text
  | [] => []
  | [t] => t
  | t :: u :: ts => t ++ [','] ++ commaSeparated (u :: ts)

mutual

def render : Value → Text
  | .null => ['n', 'u', 'l', 'l']
  | .boolean true => ['t', 'r', 'u', 'e']
  | .boolean false => ['f', 'a', 'l', 's', 'e']
  | .number n => n.render
  | .string s => encode s
  | .array vs => ['['] ++ commaSeparated (renderItems vs) ++ [']']
  | .object ms => ['\x7b'] ++ commaSeparated (renderMembers ms) ++ ['\x7d']

def renderItems : List Value → List Text
  | [] => []
  | v :: vs => render v :: renderItems vs

def renderMembers : List (Text × Value) → List Text
  | [] => []
  | (name, v) :: ms => (encode name ++ [':'] ++ render v) :: renderMembers ms

end

end StoreLog.Json
