import ModuleCompiler.SortedMap
import ModuleCompiler.Tree.Yaml

/-!
Settings of the command line: what is logged and how modules are written out. Flags of the command
line come last and override what was set before.
-/

namespace ModuleCompiler

inductive OutputFormat where
  | json
  | yaml
  deriving DecidableEq, Repr, Inhabited

namespace OutputFormat

def name : OutputFormat → String
  | json => "json"
  | yaml => "yaml"

/-- Texts for which there is no format, in lower case. -/
structure Unknown where
  text : String
  deriving DecidableEq, Repr

def Unknown.message (u : Unknown) : String :=
  s!"unknown output format '{u.text}' (expected json or yaml)"

/-- Reads the name of a format, whatever the case of its letters. -/
def ofText (s : String) : Except Unknown OutputFormat :=
  match s.toLower with
  | "json" => .ok json
  | "yaml" => .ok yaml
  | "yml" => .ok yaml
  | other => .error ⟨other⟩

end OutputFormat

structure OutputSettings where
  format : OutputFormat := .json
  pretty : Bool := true
  deriving DecidableEq, Repr, Inhabited

structure LogSection where
  consoleLevel : String
  /-- No file is written if this is empty. -/
  file : String := ""
  fileLevel : String := ""
  maxAgeDays : Option UInt32 := none
  maxBackups : Option UInt64 := none
  maxSizeMb : Option UInt64 := none
  deriving DecidableEq, Repr, Inhabited

/-- Sections by the part of the program they are for; `default` is for the rest. -/
abbrev LogSections := SortedMap LogSection

structure Settings where
  logging : Option LogSections := none
  output : OutputSettings := {}
  deriving DecidableEq, Inhabited

structure Overrides where
  format : Option OutputFormat := none
  verbosity : Nat := 0
  deriving DecidableEq, Repr, Inhabited

namespace LogSections

def defaultName : String := "default"

def standard : LogSections :=
  SortedMap.empty.insert defaultName {
    consoleLevel := "warn"
    fileLevel := "debug"
    maxAgeDays := some 7
    maxBackups := some 3
    maxSizeMb := some 100 }

end LogSections

namespace Settings

def standard : Settings := { logging := some .standard }

/-- The console level that a count of verbosity flags asks for. -/
def verboseLevel? : Nat → Option String
  | 0 => none
  | 1 => some "debug"
  | _ => some "trace"

/-- Flags change the default section only, if there is one. -/
def raiseVerbosity (sections : LogSections) (verbosity : Nat) : LogSections :=
  match verboseLevel? verbosity, sections.get? LogSections.defaultName with
  | some level, some s => sections.insert LogSections.defaultName { s with consoleLevel := level }
  | _, _ => sections

def override (s : Settings) (o : Overrides) : Settings where
  logging := some (raiseVerbosity (s.logging.getD .standard) o.verbosity)
  output := { s.output with format := o.format.getD s.output.format }

end Settings

namespace LogSection

def countTree (n : Option Nat) : Tree :=
  match n with
  | none => .null
  | some n => .integer n

def toTree (s : LogSection) : Tree :=
  .record [
    ("console_level", .text s.consoleLevel),
    ("file", .text s.file),
    ("file_level", .text s.fileLevel),
    ("max_age_days", countTree (s.maxAgeDays.map (·.toNat))),
    ("max_backups", countTree (s.maxBackups.map (·.toNat))),
    ("max_size_mb", countTree (s.maxSizeMb.map (·.toNat)))]

end LogSection

namespace Settings

def loggingTree : Option LogSections → Tree
  | none => .null
  | some sections => .record (sections.toList.map fun e => (e.1, e.2.toTree))

def outputTree (o : OutputSettings) : Tree :=
  .record [("format", .text o.format.name), ("pretty", .bool o.pretty)]

def toTree (s : Settings) : Tree :=
  .record [("logging", loggingTree s.logging), ("output", outputTree s.output)]

def toYaml (s : Settings) : String := s.toTree.toYaml

end Settings

end ModuleCompiler
