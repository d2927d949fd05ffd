import ModuleCompiler.Settings.Environment
import ModuleCompiler.Settings.Read

/-!
Settings in layers: defaults, then a file, then the environment. Without a file neither of the other
two is looked at.
-/

namespace ModuleCompiler

inductive SettingSource where
  | defaults
  | file (path : String)
  | environment
  deriving DecidableEq, Repr

namespace SettingSource

/-- A path without the parts that stay in place. -/
def shownPath (path : String) : String :=
  "/".intercalate ((path.splitOn "/").filter (· ≠ "."))

def name : SettingSource → String
  | defaults => "defaults"
  | file path => shownPath path ++ " YAML file"
  | environment => s!"\x60{Environment.marker}\x60 environment variable(s)"

/-- The profile that all settings belong to. -/
def profile : String := "default"

/-- A path of keys as the source would write it. Outside the environment it begins with the
profile. -/
def keyText (source : SettingSource) (path : List String) : String :=
  match source with
  | environment => ".".intercalate (path.map String.toUpper)
  | _ => ".".intercalate (profile :: path)

end SettingSource

inductive LoadFault where
  | malformed (e : DecodeError) (source : SettingSource)
  | invalid (e : SettingError) (source : SettingSource)

structure LoadError where
  path : String
  fault : LoadFault

def LoadError.message (e : LoadError) : String := s!"Failed to load config from '{e.path}'"

/-- What is wrong, under which key and in which source. -/
def LoadFault.message : LoadFault → String
  | malformed e source => e.report ++ " in " ++ source.name
  | invalid e source =>
    e.problem.message ++
      (if e.path.isEmpty then "" else " for key " ++ quoted (source.keyText e.path)) ++
      " in " ++ source.name

namespace Settings

def base : Settings := {}

abbrev Layers := List (SettingSource × SettingValue)

/-- Later layers over earlier ones. -/
def Layers.join (layers : Layers) : SettingValue :=
  layers.foldl (fun below layer => layer.2.onTop below) (.table [])

/-- The last layer that has something under a path. -/
def Layers.source (layers : Layers) (path : List String) : SettingSource :=
  match layers.reverse.find? fun layer => (layer.2.at? path).isSome with
  | some (source, _) => source
  | none => .defaults

def Layers.read (layers : Layers) : Except LoadFault Settings :=
  (reader layers.join).mapError fun e => .invalid e (layers.source e.path)

/-- A file that does not exist has no settings. -/
def fileLayer (path : String) : Option Yaml.Document → Except LoadFault SettingValue
  | none => .ok (.table [])
  | some doc => (SettingValue.fileDecoder.run doc).mapError (.malformed · (.file path))

def ofFile (path : String) (doc : Option Yaml.Document) (environment : Environment) :
    Except LoadError Settings :=
  (do
    let file ← fileLayer path doc
    Layers.read [(.defaults, .ofTree base.toTree), (.file path, file),
      (.environment, Environment.layer environment)]).mapError (⟨path, ·⟩)

/-- The settings file that is asked for, if any, with what is in it, if it exists. -/
structure FileChoice where
  path : String
  content : Option Yaml.Document

def load (choice : Option FileChoice) (environment : Environment) :
    Except LoadError Settings :=
  match choice with
  | none => .ok standard
  | some c => ofFile c.path c.content environment

end Settings

end ModuleCompiler
