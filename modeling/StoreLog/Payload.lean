-- SUMMARY: The records of a payload, and why other payloads are refused.
import StoreLog.Decimal.Shortest
import StoreLog.Json.Printer
import StoreLog.Json.Reader
import StoreLog.Mismatch

/-!
# Payloads

A payload is a JSON array whose first item lists the phrase-match records; later
items are ignored. A record says which store its phrase match came from.
-/

namespace StoreLog

structure StoreRef where
  path : Text
deriving DecidableEq, Repr

structure PhraseMatch where
  store : StoreRef
deriving DecidableEq, Repr

/-! ## Records -/

/-- How a number with a fraction or an exponent is shown. -/
def Json.floatLayout : Decimal.Layout where
  tie := .even
  isPositional point := -5 < point && point ≤ 16

def Json.Value.found : Json.Value → Found
  | .null => .null
  | .boolean b => .boolean b
  | .number (.integer n) => .integer n
  | .number (.decimal d) => .floating (Json.floatLayout.write (d.scaled.getD 0))
  | .string s => .string s
  | .array _ => .sequence
  | .object _ => .map

/-- Read a structure with one field. It is written as an object with that field,
or as an array of the field's value alone. -/
def decodeSingle {α : Type} (structName : String) (field : String)
    (decode : Json.Value → Except Mismatch α) : Json.Value → Except Mismatch α
  | .object members =>
    match Json.lookup? members field.toList with
    | some v => decode v
    | none => .error (.missingField field)
  | .array [] => .error (.wrongLength 0 s!"struct {structName} with 1 element")
  | .array (v :: vs) =>
    match decode v with
    | .error e => .error e
    | .ok a =>
      if vs.isEmpty then .ok a
      else .error (.wrongLength (vs.length + 1) "fewer elements in array")
  | v => .error (.wrongType v.found s!"struct {structName}")

def decodeString : Json.Value → Except Mismatch Text
  | .string s => .ok s
  | v => .error (.wrongType v.found "a string")

namespace StoreRef

def decode (v : Json.Value) : Except Mismatch StoreRef :=
  (decodeSingle "StoreRef" "path" decodeString v).map .mk

def toValue (s : StoreRef) : Json.Value :=
  .object [("path".toList, .string s.path)]

end StoreRef

namespace PhraseMatch

def decode (v : Json.Value) : Except Mismatch PhraseMatch :=
  (decodeSingle "PhraseMatch" "store" StoreRef.decode v).map .mk

def toValue (m : PhraseMatch) : Json.Value :=
  .object [("store".toList, m.store.toValue)]

def decodeAll : List Json.Value → Except Mismatch (List PhraseMatch)
  | [] => .ok []
  | v :: vs =>
    match decode v with
    | .error e => .error e
    | .ok m => (decodeAll vs).map (m :: ·)

/-- Read a list of records; the first record that is none decides. -/
def decodeList : Json.Value → Except Mismatch (List PhraseMatch)
  | .array vs => decodeAll vs
  | v => .error (.wrongType v.found "a sequence")

end PhraseMatch

/-! ## Payloads -/

/-- Why a payload is refused. -/
inductive PayloadError
  | invalidJson (error : Json.Error)
  | unexpectedShape (reason : String)
  | invalidRecord (mismatch : Mismatch)
deriving DecidableEq, Repr

namespace Payload

def emptyArray : String := "payload array is empty"

def notArray : String := "payload is not a JSON array"

def ofValue : Json.Value → Except PayloadError (List PhraseMatch)
  | .array [] => .error (.unexpectedShape emptyArray)
  | .array (v :: _) => (PhraseMatch.decodeList v).mapError .invalidRecord
  | _ => .error (.unexpectedShape notArray)

/-- The records of a payload. -/
def parse (s : Text) : Except PayloadError (List PhraseMatch) :=
  match Json.parse s with
  | .error e => .error (.invalidJson e)
  | .ok v => ofValue v

/-- The payload that lists the given records and nothing else. -/
def render (ms : List PhraseMatch) : Text :=
  Json.render (.array [.array (ms.map (·.toValue))])

end Payload

end StoreLog
