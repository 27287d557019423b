-- SUMMARY: TOML documents as tables that remember how they came to be.
import StoreLog.Text.Basic

/-!
# TOML documents

A document is a table, and a table keeps its entries in the order in which they
first appear. How a table came about decides whether a later header or dotted
key may add to it: `insertKey` adds a value under a dotted key, and `Draft` adds
the tables that headers open, one after the other.
-/

namespace StoreLog.Toml

/-- How a table came about. -/
inductive Origin
  /-- By its own header; the table of the whole document is of this kind, too. -/
  | header
  /-- By a header of a table inside it. -/
  | implied
  /-- By a dotted key. -/
  | dotted
  /-- Between braces. -/
  | inline
deriving DecidableEq, Repr

inductive Node
  | string (value : Text)
  | integer (value : Int)
  | float (value : Float)
  | boolean (value : Bool)
  /-- A date, a time, or both; which one does not matter here. -/
  | dateTime
  | array (items : List Node)
  /-- The tables of one name that headers in double brackets open. -/
  | tables (items : List (List (Text × Node)))
  | table (origin : Origin) (entries : List (Text × Node))

abbrev Entries := List (Text × Node)

namespace Entries

def find? (es : Entries) (key : Text) : Option Node :=
  (List.find? (·.1 = key) es).map (·.2)

/-- Put a node where the key stands already, else at the end. -/
def set (es : Entries) (key : Text) (n : Node) : Entries :=
  if List.any es (·.1 = key) then List.map (fun e => if e.1 = key then (key, n) else e) es
  else es ++ [(key, n)]

def remove (es : Entries) (key : Text) : Entries :=
  List.filter (·.1 ≠ key) es

end Entries

/-! ## Keys -/

/-- Change the table that a path leads to. Tables that are not there yet are made
on the way: by a dotted key if `byKey`, else by a header. A dotted key may not
reach into a table that has a header of its own. -/
def descend (byKey : Bool) (change : Origin → Entries → Option Entries) :
    List Text → Origin → Entries → Option Entries
  | [], origin, es => change origin es
  | k :: path, _, es =>
    match es.find? k with
    | none =>
      let origin := if byKey then Origin.dotted else .implied
      (descend byKey change path origin []).map fun new => es.set k (.table origin new)
    | some (.table origin inner) =>
      if origin = .inline ∨ (byKey ∧ origin = .header) then none
      else (descend byKey change path origin inner).map fun new => es.set k (.table origin new)
    | some (.tables ts) =>
      match ts.getLast? with
      | none => none
      | some inner =>
        (descend byKey change path .header inner).map fun new =>
          es.set k (.tables (ts.dropLast ++ [new]))
    | some _ => none

/-- Add a value under a dotted key, given as the path of its table and its own
name. The tables on the path must be there by dotted keys, and the name must not
be there at all. -/
def insertKey (es : Entries) (path : List Text) (name : Text) (n : Node) : Option Entries :=
  descend true
    (fun origin inner =>
      if decide (origin = .dotted) == path.isEmpty then none
      else if (inner.find? name).isSome then none
      else some (inner ++ [(name, n)]))
    path .header es

/-! ## Headers -/

/-- A document of which everything before the last header is finished. -/
structure Draft where
  finished : Entries := []
  /-- The entries under the last header. -/
  current : Entries := []
  /-- The last header; empty before the first one. -/
  path : List Text := []
  /-- The last header is one in double brackets. -/
  isItem : Bool := false

namespace Draft

/-- Put the entries under the last header into their place. -/
def finish (d : Draft) : Option Entries :=
  match d.path.getLast? with
  | none => some d.current
  | some name =>
    descend false
      (fun _ es =>
        match es.find? name, d.isItem with
        | none, true => some (es.set name (.tables [d.current]))
        | some (.tables ts), true => some (es.set name (.tables (ts ++ [d.current])))
        | none, false => some (es.set name (.table .header d.current))
        | _, _ => none)
      d.path.dropLast .header d.finished

/-- Open the table of a header. One that is there because of a header inside it
is taken up again, at a new place; every other one would be defined twice. -/
def openTable (d : Draft) (path : List Text) : Option Draft := do
  let name ← path.getLast?
  let es ← d.finish
  let kept ← descend false (fun _ es =>
    match es.find? name with
    | none => some es
    | some (.table .implied _) => some (es.remove name)
    | some _ => none) path.dropLast .header es
  return { finished := kept, current := ← entriesAt path es, path, isItem := false }
where
  /-- The entries of the table at a path, none if there is no table. -/
  entriesAt : List Text → Entries → Option Entries
    | [], es => some es
    | k :: path, es =>
      match es.find? k with
      | some (.table _ inner) => entriesAt path inner
      | some (.tables ts) => entriesAt path (ts.getLast?.getD [])
      | _ => some []

/-- Open one more table of a header in double brackets. -/
def openItem (d : Draft) (path : List Text) : Option Draft := do
  let name ← path.getLast?
  let es ← d.finish
  let kept ← descend false (fun _ es =>
    match es.find? name with
    | none => some (es.set name (.tables []))
    | some (.tables _) => some es
    | some _ => none) path.dropLast .header es
  return { finished := kept, current := [], path, isItem := true }

end Draft

end StoreLog.Toml
