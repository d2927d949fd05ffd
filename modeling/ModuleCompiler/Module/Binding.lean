import ModuleCompiler.Module.Basic
import ModuleCompiler.Module.Error

/-!
References of a descriptor as a list of steps, each of which binds one thing under one key of one
service, and their run over the tables of services. A step that finds its own binding in place
changes nothing; one that finds another there fails.
-/

namespace ModuleCompiler.Module

inductive SharedBinding where
  | serviceReference (r : ServiceReference)
  | volume (name : String)
  | dependency (r : DependencyReference)
  | config (name : String)
  deriving DecidableEq

inductive Binding where
  | shared (b : SharedBinding)
  | hostResource (r : HostResourceReference)
  | secretMount (r : SecretReference)
  | secretVariable (r : SecretReference)
  deriving DecidableEq

namespace SharedBinding

def family : SharedBinding → Family
  | serviceReference _ => .serviceReference
  | volume _ => .volume
  | dependency _ => .dependency
  | config _ => .config

/-- The entry of the descriptor that a binding comes from. -/
def origin : SharedBinding → String
  | serviceReference r => r.reference
  | volume name => name
  | dependency r => r.moduleId ++ ":" ++ r.service
  | config name => name

end SharedBinding

namespace Binding

def family : Binding → Family
  | shared b => b.family
  | hostResource _ => .hostResource
  | secretMount _ => .secretMount
  | secretVariable _ => .secretVariable

def origin : Binding → String
  | shared b => b.origin
  | hostResource r => r.reference
  | secretMount r => r.reference
  | secretVariable r => r.reference

end Binding

namespace Service

def binding? (s : Service) (family : Family) (key : String) : Option Binding :=
  match family with
  | .serviceReference => (s.serviceReferences.get? key).map fun r => .shared (.serviceReference r)
  | .volume => (s.volumes.get? key).map fun name => .shared (.volume name)
  | .dependency => (s.dependencies.get? key).map fun r => .shared (.dependency r)
  | .hostResource => (s.hostResources.get? key).map .hostResource
  | .secretMount => (s.secretMounts.get? key).map .secretMount
  | .secretVariable => (s.secretVariables.get? key).map .secretVariable
  | .config => (s.configs.get? key).map fun name => .shared (.config name)

def put (s : Service) (key : String) : Binding → Service
  | .shared (.serviceReference r) =>
    { s with serviceReferences := s.serviceReferences.insert key r }
  | .shared (.volume name) => { s with volumes := s.volumes.insert key name }
  | .shared (.dependency r) => { s with dependencies := s.dependencies.insert key r }
  | .shared (.config name) => { s with configs := s.configs.insert key name }
  | .hostResource r => { s with hostResources := s.hostResources.insert key r }
  | .secretMount r => { s with secretMounts := s.secretMounts.insert key r }
  | .secretVariable r => { s with secretVariables := s.secretVariables.insert key r }

end Service

namespace AuxService

def binding? (s : AuxService) (family : Family) (key : String) : Option SharedBinding :=
  match family with
  | .serviceReference => (s.serviceReferences.get? key).map .serviceReference
  | .volume => (s.volumes.get? key).map .volume
  | .dependency => (s.dependencies.get? key).map .dependency
  | .config => (s.configs.get? key).map .config
  | .hostResource => none
  | .secretMount => none
  | .secretVariable => none

def put (s : AuxService) (key : String) : SharedBinding → AuxService
  | .serviceReference r => { s with serviceReferences := s.serviceReferences.insert key r }
  | .volume name => { s with volumes := s.volumes.insert key name }
  | .dependency r => { s with dependencies := s.dependencies.insert key r }
  | .config name => { s with configs := s.configs.insert key name }

end AuxService

structure ServiceTables where
  services : SortedMap Service := ∅
  auxServices : SortedMap AuxService := ∅
  deriving DecidableEq, Inhabited

/-- One binding under one key of one service. -/
inductive Step where
  | service (target key : String) (b : Binding)
  | auxService (target key : String) (b : SharedBinding)
  deriving DecidableEq

/-- The new state of a target, if nothing else is bound under the key. -/
def bindOn [DecidableEq β] (s : σ) (old : Option β) (b : β) (put : σ → σ) (clash : β → ε) :
    Except ε σ :=
  match old with
  | none => .ok (put s)
  | some other => if other = b then .ok s else .error (clash other)

def updateEntry (m : SortedMap σ) (key : String) (missing : ε) (f : σ → Except ε σ) :
    Except ε (SortedMap σ) :=
  match m.get? key with
  | none => .error missing
  | some s =>
    match f s with
    | .error e => .error e
    | .ok s' => .ok (m.insert key s')

namespace ServiceTables

def apply (t : ServiceTables) : Step → Except GenerateError ServiceTables
  | .service target key b =>
    (updateEntry t.services target (.undefinedTarget b.family .service target) fun s =>
      bindOn s (s.binding? b.family key) b (·.put key b) fun old =>
        .conflict b.family target key old.origin b.origin).map
      fun services => { t with services := services }
  | .auxService target key b =>
    (updateEntry t.auxServices target (.undefinedTarget b.family .auxService target) fun s =>
      bindOn s (s.binding? b.family key) b (·.put key b) fun old =>
        .conflict b.family target key old.origin b.origin).map
      fun auxServices => { t with auxServices := auxServices }

/-- Takes steps until one fails. The tables hold what was bound till then. -/
def run (t : ServiceTables) : List Step → ServiceTables × Option GenerateError
  | [] => (t, none)
  | s :: ss =>
    match t.apply s with
    | .error e => (t, some e)
    | .ok t' => t'.run ss

end ServiceTables

namespace Step

def onKind (kind : ServiceKind) (services auxServices : List String) (key : String)
    (b : SharedBinding) : List Step :=
  match kind with
  | .service => services.map fun id => .service id key (.shared b)
  | .auxService => auxServices.map fun id => .auxService id key b

def onServices (services : List String) (key : String) (b : Binding) : List Step :=
  services.map fun id => .service id key b

def ofServiceReferences (refs : SortedMap (List Descriptor.DependencyTarget)) (kind : ServiceKind) :
    List Step :=
  refs.toList.flatMap fun (reference, targets) =>
    targets.flatMap fun t =>
      onKind kind t.services t.auxServices t.refVar (.serviceReference ⟨reference, t.template⟩)

def ofVolumes (volumes : SortedMap (List Descriptor.VolumeTarget)) (kind : ServiceKind) :
    List Step :=
  volumes.toList.flatMap fun (name, targets) =>
    targets.flatMap fun t => onKind kind t.services t.auxServices t.mountPoint (.volume name)

def ofDependencies (deps : SortedMap Descriptor.ModuleDependency) (kind : ServiceKind) :
    List Step :=
  deps.toList.flatMap fun (moduleId, dep) =>
    dep.requiredServices.toList.flatMap fun (serviceName, targets) =>
      targets.flatMap fun t =>
        onKind kind t.services t.auxServices t.refVar
          (.dependency ⟨moduleId, serviceName, t.template⟩)

def ofConfigs (configs : SortedMap Descriptor.ConfigValue) (kind : ServiceKind) : List Step :=
  configs.toList.flatMap fun (name, c) =>
    c.targets.flatMap fun t => onKind kind t.services t.auxServices t.refVar (.config name)

def ofHostResources (resources : SortedMap Descriptor.HostResource) : List Step :=
  resources.toList.flatMap fun (name, r) =>
    r.targets.flatMap fun t =>
      onServices t.services t.mountPoint (.hostResource ⟨name, t.readOnly⟩)

/-- A secret is bound under mount points and under variables. A target with neither is not looked
at. -/
def ofSecrets (secrets : SortedMap Descriptor.Secret) : List Step :=
  secrets.toList.flatMap fun (name, secret) =>
    secret.targets.flatMap (fun t =>
      bindAt t t.mountPoint (.secretMount ⟨name, t.item⟩)) ++
    secret.targets.flatMap (fun t =>
      bindAt t t.refVar (.secretVariable ⟨name, t.item⟩))
where
  bindAt (t : Descriptor.SecretTarget) (key : Option String) (b : Binding) : List Step :=
    match key with
    | none => []
    | some key => onServices t.services key b

/-- Services first, helper services next. -/
def bothKinds (steps : ServiceKind → List Step) : List Step :=
  steps .service ++ steps .auxService

/-- All bindings that a descriptor asks for, family by family. -/
def ofDescriptor (d : Descriptor) : List Step :=
  bothKinds (ofServiceReferences d.serviceReferences) ++
  bothKinds (ofVolumes d.volumes) ++
  bothKinds (ofDependencies d.dependencies) ++
  ofHostResources d.hostResources ++
  ofSecrets d.secrets ++
  bothKinds (ofConfigs d.configs)

end Step

end ModuleCompiler.Module
