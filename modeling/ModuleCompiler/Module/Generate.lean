import ModuleCompiler.Module.Config
import ModuleCompiler.Module.Resolution
import ModuleCompiler.Module.Service

/-!
Modules from descriptors. Configs are looked at first, then services, then helper services, and
references last; the first fault is told.
-/

namespace ModuleCompiler

namespace Module

def Input.ofUserInput (u : Descriptor.UserInput) : Input := ⟨u.name, u.description, u.group⟩

def Input.ofConfigUserInput (u : Descriptor.ConfigUserInput) : Input :=
  ⟨u.name, u.description, u.group⟩

def Input.ofGroup (g : Descriptor.InputGroup) : Input := ⟨g.name, g.description, g.group⟩

/-- What the operator is asked about the entries that want to be asked about. -/
def Inputs.ofDescriptor (d : Descriptor) : Inputs where
  resources := d.hostResources.filterMap fun _ r => r.userInput.map .ofUserInput
  secrets := d.secrets.filterMap fun _ s => s.userInput.map .ofUserInput
  configs := d.configs.filterMap fun _ c => c.userInput.map .ofConfigUserInput
  groups := d.inputGroups.map fun _ g => .ofGroup g

def HostResource.ofDescriptor (r : Descriptor.HostResource) : HostResource :=
  ⟨.ofList r.tags, !r.optional⟩

def Secret.ofDescriptor (s : Descriptor.Secret) : Secret := ⟨s.type, .ofList s.tags, !s.optional⟩

/-- The services of a descriptor before anything is bound on them. -/
def ServiceTables.ofDescriptor (d : Descriptor) : Except GenerateError ServiceTables := do
  let services ← Service.ofDescriptors d.services
  let auxServices ← AuxService.ofDescriptors d.auxServices
  return ⟨services, auxServices⟩

def assemble (d : Descriptor) (configs : SortedMap ConfigEntry) (t : ServiceTables) : Module where
  id := d.id
  name := d.name
  description := d.description
  tags := .ofList d.tags
  license := d.license
  author := d.author
  version := d.version
  type := d.type
  deploymentType := d.deploymentType
  architectures := .ofList d.architectures
  services := t.services
  auxServices := t.auxServices
  auxImageSources := .ofList d.auxImageSources
  volumes := d.volumes.map fun _ _ => ()
  dependencies := d.dependencies.map fun _ dep => dep.version
  hostResources := d.hostResources.map fun _ r => .ofDescriptor r
  secrets := d.secrets.map fun _ s => .ofDescriptor s
  configs := configs
  inputs := .ofDescriptor d

end Module

def Module.ofDescriptor (d : Descriptor) : Except GenerateError Module := do
  let configs ← Module.ConfigEntry.ofDescriptors d.configs
  let tables ← Module.ServiceTables.ofDescriptor d
  let tables ← Module.resolve tables d
  return Module.assemble d configs tables

end ModuleCompiler
