import ModuleCompiler.Compiler.Error
import ModuleCompiler.Descriptor.Decode
import ModuleCompiler.Module.Generate
import ModuleCompiler.Text.Quoted

/-!
Versions of the descriptor format, each with its way from documents to modules.
-/

namespace ModuleCompiler

structure VersionEntry where
  version : String
  compile : Yaml.Document → Except CompileError Module
  deriving Inhabited

namespace VersionEntry

def v1 : VersionEntry where
  version := "v1"
  compile := fun doc =>
    match Descriptor.decoder.run doc with
    | .error e => .error (.decode e)
    | .ok d => (Module.ofDescriptor d).mapError .generate

def describe (e : VersionEntry) : String :=
  "VersionEntry \x7b version: " ++ quoted e.version ++ " \x7d"

end VersionEntry

inductive RegistrationFault where
  | emptyName
  | alreadyRegistered (version : String)
  deriving DecidableEq, Repr

def RegistrationFault.message : RegistrationFault → String
  | emptyName => "Schema version with an empty name"
  | alreadyRegistered version => s!"Schema version '{version}' is already registered"

inductive RegistryError where
  | noVersions
  | invalidConfiguration (faults : List RegistrationFault)
  deriving DecidableEq, Repr

/-- Faults are listed one a line. -/
def RegistryError.message : RegistryError → String
  | noVersions => "no schema versions registered"
  | invalidConfiguration faults =>
    "invalid registry configuration:\n[\n" ++
      String.join (faults.map fun f => "    " ++ quoted f.message ++ ",\n") ++ "]"

structure Registry where
  entries : SortedMap VersionEntry := ∅
  deriving Inhabited

namespace Registry

def get? (r : Registry) (version : String) : Option VersionEntry := r.entries.get? version

/-- Ascending. -/
def versions (r : Registry) : List String := r.entries.keys

def isEmpty (r : Registry) : Bool := r.entries.isEmpty

def describe (r : Registry) : String :=
  "VersionRegistry \x7b versions: [" ++ ", ".intercalate (r.versions.map quoted) ++ "] \x7d"

end Registry

structure RegistryBuilder where
  entries : SortedMap VersionEntry := ∅
  faults : List RegistrationFault := []
  deriving Inhabited

namespace RegistryBuilder

def fault? (b : RegistryBuilder) (version : String) : Option RegistrationFault :=
  if version.isEmpty then some .emptyName
  else if b.entries.contains version then some (.alreadyRegistered version)
  else none

/-- The first entry of a version stays. -/
def register (b : RegistryBuilder) (e : VersionEntry) : RegistryBuilder :=
  match b.fault? e.version with
  | some f => { b with faults := b.faults ++ [f] }
  | none => { b with entries := b.entries.insert e.version e }

def build (b : RegistryBuilder) : Except RegistryError Registry :=
  if !b.faults.isEmpty then .error (.invalidConfiguration b.faults)
  else if b.entries.isEmpty then .error .noVersions
  else .ok ⟨b.entries⟩

end RegistryBuilder

def Registry.standard : Except RegistryError Registry :=
  (RegistryBuilder.register {} .v1).build

end ModuleCompiler
