-- SUMMARY: The typed reading of a raw configuration from a TOML document.
import StoreLog.Config.Basic
import StoreLog.Decimal.Shortest
import StoreLog.Toml.Reader

/-!
# Configurations as TOML

Which raw configuration a TOML document denotes. Keys that no setting has are
passed over. A section is a table, or an array of the values of its fields in
their order; a date stands for an empty section. Of several values of the wrong
type, the first one in the order of the document decides.
-/

namespace StoreLog

open Toml (Node Entries)

/-- How a float is shown: always without an exponent. -/
def Toml.floatLayout : Decimal.Layout where
  tie := .up
  isPositional _ := true

def Toml.Node.found : Node → Found
  | .string s => .string s
  | .integer n => .integer n
  | .float x => .floating (Toml.floatLayout.write x)
  | .boolean b => .boolean b
  | .dateTime => .map
  | .array _ => .sequence
  | .tables _ => .sequence
  | .table .. => .map

/-! ## Values -/

def decodeTomlText : Node → Except Mismatch Text
  | .string s => .ok s
  | n => .error (.wrongType n.found "a string")

/-- The items of a node that is some kind of array. -/
def Toml.Node.items? : Node → Option (List Node)
  | .array items => some items
  | .tables ts => some (ts.map (.table .header))
  | _ => none

def decodeTomlTexts (n : Node) : Except Mismatch (List Text) :=
  match n.items? with
  | some items => items.mapM decodeTomlText
  | none => .error (.wrongType n.found "a sequence")

/-! ## Sections -/

/-- A field of a section: its key, and how its value gets into the section. -/
structure SectionField (σ : Type) where
  key : String
  put : σ → Node → Except Mismatch σ

def SectionField.text {σ : Type} (key : String) (set : σ → Text → σ) : SectionField σ where
  key
  put s n := (decodeTomlText n).map (set s)

/-- Read the entries of a table in their order. -/
def decodeEntries {σ : Type} (fields : List (SectionField σ)) (s : σ) (es : Entries) :
    Except Mismatch σ :=
  es.foldlM (fun s (key, n) =>
    match fields.find? (·.key.toList = key) with
    | some f => f.put s n
    | none => .ok s) s

/-- Read values by the order of the fields; further ones do not count. -/
def decodePositions {σ : Type} (fields : List (SectionField σ)) (s : σ) (items : List Node) :
    Except Mismatch σ :=
  (fields.zip items).foldlM (fun s (f, n) => f.put s n) s

def decodeSection {σ : Type} (structName : String) (fields : List (SectionField σ)) (s : σ)
    (n : Node) : Except Mismatch σ :=
  match n, n.items? with
  | .table _ es, _ => decodeEntries fields s es
  | .dateTime, _ => .ok s
  | _, some items => decodePositions fields s items
  | n, none => .error (.wrongType n.found s!"struct {structName}")

def RawDump.fields : List (SectionField RawDump) := [
  .text "program" fun s v => { s with program := some v },
  ⟨"args", fun s n => (decodeTomlTexts n).map fun v => { s with args := some v }⟩,
  .text "output_dir" fun s v => { s with outputDir := some v },
  .text "store_extension" fun s v => { s with storeExtension := some v },
  .text "data_extension" fun s v => { s with dataExtension := some v }]

def RawLogs.fields : List (SectionField RawLogs) := [
  .text "marker" fun s v => { s with marker := some v },
  .text "match_prefix" fun s v => { s with matchPrefix := some v }]

def RawLogging.fields : List (SectionField RawLogging) := [
  .text "level" fun s v => { s with level := some v }]

def RawConfig.fields : List (SectionField RawConfig) := [
  ⟨"dump", fun c n =>
    (decodeSection "DumpSection" RawDump.fields {} n).map fun s => { c with dump := s }⟩,
  ⟨"logs", fun c n =>
    (decodeSection "LogsSection" RawLogs.fields {} n).map fun s => { c with logs := s }⟩,
  ⟨"logging", fun c n =>
    (decodeSection "LoggingSection" RawLogging.fields {} n).map fun s => { c with logging := s }⟩]

/-- The raw configuration that a text denotes. -/
def RawConfig.parse (s : Text) : Except TomlError RawConfig :=
  match Toml.parse s with
  | none => .error .notToml
  | some es => (decodeEntries RawConfig.fields {} es).mapError .mismatch

end StoreLog
