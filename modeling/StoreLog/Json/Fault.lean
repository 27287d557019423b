-- SUMMARY: Where and why the reading of a JSON text stops, and how an error says so.
import StoreLog.Text.Utf8

/-!
# Faults in a JSON text

Why a text is not a JSON text, and where. A reader knows only what it has not
read yet, so a fault counts the bytes that follow it; `Fault.locate` turns the
count into a line and a column of the whole text.
-/

namespace StoreLog.Json

inductive Cause
  | endInValue
  | endInString
  | endInList
  | endInObject
  | expectedValue
  | expectedIdent
  | expectedListCommaOrEnd
  | expectedObjectCommaOrEnd
  | expectedColon
  | keyNotString
  | trailingComma
  | trailingCharacters
  | controlCharacter
  | invalidEscape
  | loneSurrogate
  | unfinishedSurrogate
  | invalidNumber
  | numberOutOfRange
  | nestedTooDeep
deriving DecidableEq, Repr

def Cause.message : Cause → String
  | .endInValue => "EOF while parsing a value"
  | .endInString => "EOF while parsing a string"
  | .endInList => "EOF while parsing a list"
  | .endInObject => "EOF while parsing an object"
  | .expectedValue => "expected value"
  | .expectedIdent => "expected ident"
  | .expectedListCommaOrEnd => "expected `,` or `]`"
  | .expectedObjectCommaOrEnd => "expected `,` or `\x7d`"
  | .expectedColon => "expected `:`"
  | .keyNotString => "key must be a string"
  | .trailingComma => "trailing comma"
  | .trailingCharacters => "trailing characters"
  | .controlCharacter => "control character (\\u0000-\\u001F) found while parsing a string"
  | .invalidEscape => "invalid escape"
  | .loneSurrogate => "lone leading surrogate in hex escape"
  | .unfinishedSurrogate => "unexpected end of hex escape"
  | .invalidNumber => "invalid number"
  | .numberOutOfRange => "number out of range"
  | .nestedTooDeep => "recursion limit exceeded"

/-- A cause and the number of bytes that follow the place where it arose. -/
structure Fault where
  cause : Cause
  unread : Nat
deriving DecidableEq, Repr

namespace Fault

/-- A fault of the first byte of `rest`, or of the end where `rest` is empty. -/
def atFront (cause : Cause) (rest : Text) : Fault :=
  ⟨cause, Utf8.size rest - 1⟩

/-- A fault of what stands before `rest`. -/
def before (cause : Cause) (rest : Text) : Fault :=
  ⟨cause, Utf8.size rest⟩

end Fault

/-- Why and where a text is not a JSON text. Lines count from one; the column is
the number of bytes of the line up to the fault. -/
structure Error where
  cause : Cause
  line : Nat
  column : Nat
deriving DecidableEq, Repr

def Error.message (e : Error) : String :=
  s!"{e.cause.message} at line {e.line} column {e.column}"

def Fault.locate (f : Fault) (s : Text) : Error :=
  let bytes := Utf8.encode s
  let read := bytes.take (bytes.length - f.unread)
  ⟨f.cause, read.count lineFeed + 1, (read.reverse.takeWhile (· != lineFeed)).length⟩

end StoreLog.Json
