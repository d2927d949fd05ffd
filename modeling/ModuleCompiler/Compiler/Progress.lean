import ModuleCompiler.Compiler.Basic
import ModuleCompiler.Log.Entry

/-!
What is logged while a document is compiled. Entries stop where the compilation fails.
-/

namespace ModuleCompiler.Progress

open Log

def registryTarget : String := "modfile::registry"

def compilerTarget : String := "modfile::compiler"

def generateTarget : String := "modfile::v1::assemble"

def bindingTarget : String := "modfile::v1::resolver"

/-- The versions are told when they are registered. -/
def registered (r : Registry) : Entry where
  level := .info
  target := registryTarget
  message := "Schema versions registered"
  fields := [("versions", .shown ("[" ++ ", ".intercalate (r.versions.map quoted) ++ "]"))]

def compileSpan (size : Nat) (version : String) : Span where
  name := "modfile.compile"
  target := compilerTarget
  fields := [("bytes", .number size), ("version", .text version)]

def generateSpan (id : String) : Span where
  name := "modfile.v1.generate"
  target := generateTarget
  fields := [("module", .shown id)]

def sizes (t : Module.ServiceTables) : Fields :=
  [("services", .number t.services.size), ("aux_services", .number t.auxServices.size)]

def generating (d : Descriptor) (spans : List Span) : List Entry :=
  match Module.ConfigEntry.ofDescriptors d.configs with
  | .error _ => []
  | .ok configs =>
    ⟨.debug, generateTarget, "configs compiled", [("configs", .number configs.size)], spans⟩ ::
      match Module.ServiceTables.ofDescriptor d with
      | .error _ => []
      | .ok tables =>
        ⟨.debug, generateTarget, "services generated", sizes tables, spans⟩ ::
          match Module.resolve tables d with
          | .error _ => []
          | .ok tables => [⟨.debug, bindingTarget, "references resolved", sizes tables, spans⟩]

def compiled (m : Module) (spans : List Span) : Entry where
  level := .debug
  target := compilerTarget
  message := "module compiled"
  fields := [("module", .shown m.id), ("services", .number m.services.size),
    ("aux_services", .number m.auxServices.size), ("configs", .number m.configs.size)]
  spans := spans

def ofDescriptor (version : String) (d : Descriptor) (spans : List Span) : List Entry :=
  ⟨.debug, registryTarget, "descriptor decoded", [("version", .text version)], spans⟩ ::
    generating d (spans ++ [generateSpan d.id]) ++
    match Module.ofDescriptor d with
    | .error _ => []
    | .ok m => [compiled m spans]

def ofDocument (size : Nat) (doc : Yaml.Document) : List Entry :=
  match Compiler.versionOf doc with
  | .ok (some version) =>
    if version = VersionEntry.v1.version then
      match Descriptor.decoder.run doc with
      | .error _ => []
      | .ok d => ofDescriptor version d [compileSpan size version]
    else []
  | _ => []

end ModuleCompiler.Progress
