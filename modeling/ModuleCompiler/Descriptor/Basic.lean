import ModuleCompiler.RawValue
import ModuleCompiler.Field.PortSpec
import ModuleCompiler.Field.Duration

/-!
The descriptor of a module as its author writes it. Every field may be left out.
-/

namespace ModuleCompiler

/-- Services proper, and helpers that run beside them. -/
inductive ServiceKind where
  | service
  | auxService
  deriving DecidableEq, Repr

def ServiceKind.name : ServiceKind → String
  | service => "service"
  | auxService => "aux service"

namespace Descriptor

structure RunConfig where
  maxRetries : Option UInt32 := none
  runOnce : Bool := false
  stopTimeout : Option Duration := none
  stopSignal : Option String := none
  pseudoTty : Bool := false
  command : List String := []
  deriving Inhabited

structure BindMount where
  mountPoint : String := ""
  source : String := ""
  readOnly : Bool := false
  deriving DecidableEq, Inhabited

structure TmpfsMount where
  mountPoint : String := ""
  size : UInt64 := 0
  mode : Option UInt32 := none
  deriving DecidableEq, Inhabited

structure ProxyConf where
  headers : SortedMap String := ∅
  websocket : Bool := false
  readTimeout : Option Duration := none
  deriving Inhabited

structure StringSub where
  replaceOnce : Bool := false
  mimeTypes : List String := []
  filters : SortedMap String := ∅
  deriving Inhabited

structure HttpEndpoint where
  name : String := ""
  path : String := ""
  port : Option UInt16 := none
  extPath : Option String := none
  proxyConf : Option ProxyConf := none
  stringSub : Option StringSub := none
  deriving Inhabited

structure ServicePort where
  name : Option String := none
  port : PortSpec := {}
  hostPort : Option PortSpec := none
  protocol : Option String := none
  deriving Inhabited

structure Service where
  name : String := ""
  image : String := ""
  runConfig : RunConfig := {}
  bindMounts : List BindMount := []
  tmpfs : List TmpfsMount := []
  httpEndpoints : List HttpEndpoint := []
  ports : List ServicePort := []
  requiredServices : List String := []
  deriving Inhabited

structure AuxService where
  name : String := ""
  runConfig : RunConfig := {}
  bindMounts : List BindMount := []
  tmpfs : List TmpfsMount := []
  deriving Inhabited

structure DependencyTarget where
  refVar : String := ""
  template : Option String := none
  services : List String := []
  auxServices : List String := []
  deriving Inhabited

structure VolumeTarget where
  mountPoint : String := ""
  services : List String := []
  auxServices : List String := []
  deriving Inhabited

structure ModuleDependency where
  version : String := ""
  requiredServices : SortedMap (List DependencyTarget) := ∅
  deriving Inhabited

/-- What the operator is asked when the module is deployed. -/
structure UserInput where
  name : String := ""
  description : Option String := none
  group : Option String := none
  deriving DecidableEq, Inhabited

structure HostResourceTarget where
  mountPoint : String := ""
  services : List String := []
  readOnly : Bool := false
  deriving Inhabited

structure HostResource where
  tags : List String := []
  userInput : Option UserInput := none
  optional : Bool := false
  targets : List HostResourceTarget := []
  deriving Inhabited

structure SecretTarget where
  mountPoint : Option String := none
  refVar : Option String := none
  item : Option String := none
  services : List String := []
  deriving Inhabited

structure Secret where
  type : String := ""
  tags : List String := []
  userInput : Option UserInput := none
  optional : Bool := false
  targets : List SecretTarget := []
  deriving Inhabited

structure ConfigUserInput where
  name : String := ""
  description : Option String := none
  group : Option String := none
  type : String := ""
  typeOptions : SortedMap RawValue := ∅
  deriving Inhabited

structure ConfigTarget where
  refVar : String := ""
  services : List String := []
  auxServices : List String := []
  deriving Inhabited

structure ConfigValue where
  value : RawValue := .absent
  options : List RawValue := []
  optionsExt : Bool := false
  dataType : Option String := none
  isList : Bool := false
  delimiter : Option String := none
  userInput : Option ConfigUserInput := none
  targets : List ConfigTarget := []
  optional : Bool := false
  deriving Inhabited

structure InputGroup where
  name : String := ""
  description : Option String := none
  group : Option String := none
  deriving DecidableEq, Inhabited

end Descriptor

structure Descriptor where
  modfileVersion : String := ""
  id : String := ""
  name : String := ""
  description : String := ""
  tags : List String := []
  license : String := ""
  author : String := ""
  version : String := ""
  type : String := ""
  deploymentType : String := ""
  architectures : List String := []
  services : SortedMap Descriptor.Service := ∅
  auxServices : SortedMap Descriptor.AuxService := ∅
  auxImageSources : List String := []
  serviceReferences : SortedMap (List Descriptor.DependencyTarget) := ∅
  volumes : SortedMap (List Descriptor.VolumeTarget) := ∅
  dependencies : SortedMap Descriptor.ModuleDependency := ∅
  hostResources : SortedMap Descriptor.HostResource := ∅
  secrets : SortedMap Descriptor.Secret := ∅
  configs : SortedMap Descriptor.ConfigValue := ∅
  inputGroups : SortedMap Descriptor.InputGroup := ∅
  deriving Inhabited

end ModuleCompiler
