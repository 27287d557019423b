-- SUMMARY: Raw and validated configurations, and what validation settles and warns of.
import StoreLog.Dump.Invocation
import StoreLog.Failure
import StoreLog.Scan.Basic

/-!
# Configuration

The settings of both tools. A raw configuration gives some of the settings as
they are written; `RawConfig.validate` takes over every acceptable one, leaves
the others at their defaults and warns of them.
-/

namespace StoreLog

structure Config where
  dump : DumpConfig
  scan : ScanSettings
  logLevel : Option Text
deriving DecidableEq, Repr

def Config.default : Config where
  dump := .default
  scan := .default
  logLevel := none

instance : Inhabited Config := ⟨.default⟩

/-! ## Raw configurations -/

structure RawDump where
  program : Option Text := none
  args : Option (List Text) := none
  outputDir : Option Text := none
  storeExtension : Option Text := none
  dataExtension : Option Text := none
deriving DecidableEq, Repr

structure RawLogs where
  marker : Option Text := none
  matchPrefix : Option Text := none
deriving DecidableEq, Repr

structure RawLogging where
  level : Option Text := none
deriving DecidableEq, Repr

structure RawConfig where
  dump : RawDump := {}
  logs : RawLogs := {}
  logging : RawLogging := {}
deriving DecidableEq, Repr

/-! ## Rules -/

/-- Which values of a setting are acceptable. -/
structure Rule where
  field : String
  expected : String
  accepts : Text → Bool

namespace Rule

def isExtension (s : Text) : Bool :=
  s.head? == some '.' && 1 < s.length

def program : Rule where
  field := "dump.program"
  expected := "a non-empty executable name"
  accepts s := !(Text.trim s).isEmpty

def outputDir : Rule where
  field := "dump.output_dir"
  expected := "a non-empty directory path"
  accepts s := !s.isEmpty

def storeExtension : Rule where
  field := "dump.store_extension"
  expected := "an extension starting with '.'"
  accepts := isExtension

def dataExtension : Rule where
  field := "dump.data_extension"
  expected := "an extension starting with '.'"
  accepts := isExtension

def marker : Rule where
  field := "logs.marker"
  expected := "a non-empty substring"
  accepts s := !s.isEmpty

def matchPrefix : Rule where
  field := "logs.match_prefix"
  expected := "a non-empty prefix"
  accepts s := !s.isEmpty

def level : Rule where
  field := "logging.level"
  expected := "one of error, warn, info, debug, trace"
  accepts s := (Level.ofName? s).isSome

/-- The given value, if there is one and it is acceptable. -/
def accept? (r : Rule) (given : Option Text) : Option Text :=
  given.filter r.accepts

/-- The error of a value that is given but not acceptable. -/
def complaints (r : Rule) : Option Text → List ConfigError
  | some s => if r.accepts s then [] else [.outOfRange r.field (String.ofList s) r.expected]
  | none => []

end Rule

/-! ## Validation -/

namespace RawConfig

def settings (raw : RawConfig) : Config where
  dump := {
    program := (Rule.program.accept? raw.dump.program).getD DumpConfig.default.program
    args := raw.dump.args.getD DumpConfig.default.args
    outputDir :=
      ((Rule.outputDir.accept? raw.dump.outputDir).map Path.ofText).getD
        DumpConfig.default.outputDir
    storeExtension :=
      (Rule.storeExtension.accept? raw.dump.storeExtension).getD DumpConfig.default.storeExtension
    dataExtension :=
      (Rule.dataExtension.accept? raw.dump.dataExtension).getD DumpConfig.default.dataExtension }
  scan := {
    marker := (Rule.marker.accept? raw.logs.marker).getD ScanSettings.default.marker
    matchPrefix :=
      (Rule.matchPrefix.accept? raw.logs.matchPrefix).getD ScanSettings.default.matchPrefix }
  logLevel := Rule.level.accept? raw.logging.level

/-- The errors in the order of the sections and of their fields. -/
def complaints (raw : RawConfig) : List ConfigError :=
  Rule.program.complaints raw.dump.program ++
    Rule.outputDir.complaints raw.dump.outputDir ++
    Rule.storeExtension.complaints raw.dump.storeExtension ++
    Rule.dataExtension.complaints raw.dump.dataExtension ++
    Rule.marker.complaints raw.logs.marker ++
    Rule.matchPrefix.complaints raw.logs.matchPrefix ++
    Rule.level.complaints raw.logging.level

def validate (raw : RawConfig) : Config × List ConfigWarning :=
  (raw.settings, raw.complaints.map .value)

end RawConfig

end StoreLog
