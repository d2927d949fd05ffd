import ModuleCompiler.Compiler.Registry

/-!
Modules from documents: the version that a document names chooses how it is compiled.
-/

namespace ModuleCompiler

structure Compiler where
  registry : Registry := {}
  deriving Inhabited

namespace Compiler

/-- The version that a document names; an empty name is none. -/
def versionOf (doc : Yaml.Document) : Except DecodeError (Option String) :=
  (Descriptor.VersionMarker.decoder.run doc).map fun marker =>
    (marker.bind (·.version)).filter (!·.isEmpty)

def compile (c : Compiler) (doc : Yaml.Document) : Except CompileError Module :=
  if c.registry.isEmpty then .error .noDecoders
  else
    match versionOf doc with
    | .error e => .error (.decode e)
    | .ok none => .error .noVersion
    | .ok (some version) =>
      match c.registry.get? version with
      | none => .error (.unknownVersion version)
      | some entry => entry.compile doc

def describe (c : Compiler) : String :=
  "Compiler \x7b registry: " ++ c.registry.describe ++ " \x7d"

def standard : Compiler := ⟨⟨SortedMap.empty.insert VersionEntry.v1.version .v1⟩⟩

/-- The versions that are registered make a registry, so compiling never fails for the want of
one. -/
theorem registry_standard : Registry.standard = .ok standard.registry := rfl

end Compiler

/-- The module that a text describes. -/
def compile (bytes : ByteArray) : Except CompileError Module :=
  Compiler.standard.compile (.ofBytes bytes)

end ModuleCompiler
