import ModuleCompiler.Module.Arena
import ModuleCompiler.Module.Binding

/-!
References of a descriptor bound pass by pass, services and helper services each in an arena of
their own. The first fault ends it.
-/

namespace ModuleCompiler

namespace Descriptor

instance : Module.Targets DependencyTarget where
  services := (·.services)
  auxServices := (·.auxServices)

instance : Module.Targets VolumeTarget where
  services := (·.services)
  auxServices := (·.auxServices)

instance : Module.Targets ConfigTarget where
  services := (·.services)
  auxServices := (·.auxServices)

instance : Module.Targets HostResourceTarget where
  services := (·.services)

instance : Module.Targets SecretTarget where
  services := (·.services)

end Descriptor

namespace Module

/-- Services of any kind can hold the bindings that all kinds share. -/
class Sharer (σ : Type) where
  share : String → String → SharedBinding → σ → σ × Option GenerateError

def Service.bind (id key : String) (b : Binding) : Service → Service × Option GenerateError :=
  attempt fun s => bindOn s (s.binding? b.family key) b (·.put key b) fun old =>
    .conflict b.family id key old.origin b.origin

def AuxService.bind (id key : String) (b : SharedBinding) :
    AuxService → AuxService × Option GenerateError :=
  attempt fun s => bindOn s (s.binding? b.family key) b (·.put key b) fun old =>
    .conflict b.family id key old.origin b.origin

instance : Sharer Service where
  share id key b := Service.bind id key (.shared b)

instance : Sharer AuxService where
  share := AuxService.bind

/-- Makes passes one after another. -/
def inTurn (passes : List (α → α × Option ε)) (a : α) : α × Option ε :=
  sweep (fun a pass => pass a) a passes

namespace Arena

section Shared

variable [Sharer σ]

def bindServiceReferences (refs : SortedMap (List Descriptor.DependencyTarget)) (a : Arena σ) :
    Arena σ × Option Stop :=
  sweep (fun a (reference, targets) =>
    a.forEachTarget .serviceReference targets fun t id =>
      Sharer.share id t.refVar (.serviceReference ⟨reference, t.template⟩)) a refs.toList

def bindVolumes (volumes : SortedMap (List Descriptor.VolumeTarget)) (a : Arena σ) :
    Arena σ × Option Stop :=
  sweep (fun a (name, targets) =>
    a.forEachTarget .volume targets fun t id =>
      Sharer.share id t.mountPoint (.volume name)) a volumes.toList

def bindDependencies (deps : SortedMap Descriptor.ModuleDependency) (a : Arena σ) :
    Arena σ × Option Stop :=
  sweep (fun a (moduleId, dep) =>
    sweep (fun a (service, targets) =>
      a.forEachTarget .dependency targets fun t id =>
        Sharer.share id t.refVar (.dependency ⟨moduleId, service, t.template⟩))
      a dep.requiredServices.toList) a deps.toList

def bindConfigs (configs : SortedMap Descriptor.ConfigValue) (a : Arena σ) :
    Arena σ × Option Stop :=
  sweep (fun a (name, c) =>
    a.forEachTarget .config c.targets fun t id =>
      Sharer.share id t.refVar (.config name)) a configs.toList

end Shared

def bindHostResources (resources : SortedMap Descriptor.HostResource) (a : Arena Service) :
    Arena Service × Option Stop :=
  sweep (fun a (name, r) =>
    a.forEachTarget .hostResource r.targets fun t id =>
      Service.bind id t.mountPoint (.hostResource ⟨name, t.readOnly⟩)) a resources.toList

/-- Binds a secret under the keys that its targets have. -/
def bindSecret (family : Family) (key? : Descriptor.SecretTarget → Option String)
    (binding : SecretReference → Binding) (name : String) (secret : Descriptor.Secret)
    (a : Arena Service) : Arena Service × Option Stop :=
  a.forEachTarget family (secret.targets.filter fun t => (key? t).isSome) fun t id s =>
    match key? t with
    | none => (s, none)
    | some key => s.bind id key (binding ⟨name, t.item⟩)

/-- Secrets are bound twice, under mount points and under variables. -/
def bindSecrets (secrets : SortedMap Descriptor.Secret) (a : Arena Service) :
    Arena Service × Option Stop :=
  sweep (fun a (name, secret) =>
    inTurn [
      bindSecret .secretMount (·.mountPoint) .secretMount name secret,
      bindSecret .secretVariable (·.refVar) .secretVariable name secret] a) a secrets.toList

end Arena

structure Resolver where
  services : Arena Service
  auxServices : Arena AuxService

namespace Resolver

def ofTables (t : ServiceTables) : Resolver where
  services := .ofMap .service t.services
  auxServices := .ofMap .auxService t.auxServices

def toTables (r : Resolver) : ServiceTables := ⟨r.services.toMap, r.auxServices.toMap⟩

def onServices (pass : Arena Service → Arena Service × Option Stop) (r : Resolver) :
    Resolver × Option Stop :=
  ({ r with services := (pass r.services).1 }, (pass r.services).2)

def onAuxServices (pass : Arena AuxService → Arena AuxService × Option Stop) (r : Resolver) :
    Resolver × Option Stop :=
  ({ r with auxServices := (pass r.auxServices).1 }, (pass r.auxServices).2)

/-- Helper services come right after services. -/
def resolve (d : Descriptor) : Resolver → Resolver × Option Stop :=
  inTurn [
    onServices (Arena.bindServiceReferences d.serviceReferences),
    onAuxServices (Arena.bindServiceReferences d.serviceReferences),
    onServices (Arena.bindVolumes d.volumes),
    onAuxServices (Arena.bindVolumes d.volumes),
    onServices (Arena.bindDependencies d.dependencies),
    onAuxServices (Arena.bindDependencies d.dependencies),
    onServices (Arena.bindHostResources d.hostResources),
    onServices (Arena.bindSecrets d.secrets),
    onServices (Arena.bindConfigs d.configs),
    onAuxServices (Arena.bindConfigs d.configs)]

end Resolver

end Module

end ModuleCompiler
