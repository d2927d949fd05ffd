import ModuleCompiler.Module.Mounts
import ModuleCompiler.Module.Ports

/-!
Services from their own sections of a descriptor. References come later, so their places are empty.
-/

namespace ModuleCompiler.Module

def defaultMaxRetries : UInt32 := 5

def defaultStopTimeout : Duration := .ofSeconds 5

def RunConfig.ofDescriptor (r : Descriptor.RunConfig) : RunConfig where
  maxRetries := r.maxRetries.getD defaultMaxRetries
  runOnce := r.runOnce
  stopTimeout := r.stopTimeout.getD defaultStopTimeout
  stopSignal := r.stopSignal
  pseudoTty := r.pseudoTty
  command := r.command

def inSection (kind : ServiceKind) (id : String) (part : ServiceSection) (wrap : ε → ServiceError)
    (x : Except ε α) : Except GenerateError α :=
  x.mapError fun e => .service kind id part (wrap e)

def Service.ofDescriptor (id : String) (s : Descriptor.Service) : Except GenerateError Service := do
  let bindMounts ← inSection .service id .bindMounts .mount (BindMount.ofDescriptors s.bindMounts)
  let tmpfs ← inSection .service id .tmpfsMounts .mount (TmpfsMount.ofDescriptors s.tmpfs)
  let endpoints ←
    inSection .service id .httpEndpoints .mount (HttpEndpoint.ofDescriptors s.httpEndpoints)
  let ports ← inSection .service id .ports .port (Port.ofDescriptors s.ports)
  return {
    name := s.name
    image := s.image
    runConfig := .ofDescriptor s.runConfig
    bindMounts := bindMounts
    tmpfs := tmpfs
    httpEndpoints := endpoints
    ports := ports
    requiredServices := .ofList s.requiredServices }

def AuxService.ofDescriptor (id : String) (s : Descriptor.AuxService) :
    Except GenerateError AuxService := do
  let bindMounts ←
    inSection .auxService id .bindMounts .mount (BindMount.ofDescriptors s.bindMounts)
  let tmpfs ← inSection .auxService id .tmpfsMounts .mount (TmpfsMount.ofDescriptors s.tmpfs)
  return {
    name := s.name
    runConfig := .ofDescriptor s.runConfig
    bindMounts := bindMounts
    tmpfs := tmpfs }

def Service.ofDescriptors (ss : SortedMap Descriptor.Service) :
    Except GenerateError (SortedMap Service) :=
  ss.traverse Service.ofDescriptor

def AuxService.ofDescriptors (ss : SortedMap Descriptor.AuxService) :
    Except GenerateError (SortedMap AuxService) :=
  ss.traverse AuxService.ofDescriptor

end ModuleCompiler.Module
