import ModuleCompiler.RawValue
import ModuleCompiler.Field.Duration

/-!
Compiled modules: what a descriptor says with all defaults filled in, ranges expanded, and every
reference bound on the service that it is meant for.
-/

namespace ModuleCompiler

namespace Module

structure RunConfig where
  maxRetries : UInt32 := 0
  runOnce : Bool := false
  stopTimeout : Duration := .zero
  stopSignal : Option String := none
  pseudoTty : Bool := false
  command : List String := []
  deriving DecidableEq, Inhabited

structure BindMount where
  source : String
  readOnly : Bool
  deriving DecidableEq, Inhabited

structure TmpfsMount where
  size : UInt64
  mode : UInt32
  deriving DecidableEq, Inhabited

structure ProxyConf where
  headers : SortedMap String := ∅
  websocket : Bool := false
  readTimeout : Option Duration := none
  deriving DecidableEq, Inhabited

structure StringSub where
  replaceOnce : Bool := false
  mimeTypes : List String := []
  filters : SortedMap String := ∅
  deriving DecidableEq, Inhabited

structure HttpEndpoint where
  name : String
  port : Option UInt16
  path : String
  proxyConf : Option ProxyConf
  stringSub : Option StringSub
  deriving DecidableEq, Inhabited

structure Port where
  name : Option String
  number : UInt16
  protocol : String
  bindings : List UInt16
  deriving DecidableEq, Inhabited

/-- How a service reaches another one of its module. -/
structure ServiceReference where
  reference : String
  template : Option String
  deriving DecidableEq, Inhabited

/-- How a service reaches a service of another module. -/
structure DependencyReference where
  moduleId : String
  service : String
  template : Option String
  deriving DecidableEq, Inhabited

structure HostResourceReference where
  reference : String
  readOnly : Bool
  deriving DecidableEq, Inhabited

structure SecretReference where
  reference : String
  item : Option String
  deriving DecidableEq, Inhabited

/-- Mounts are keyed by their place in the container, endpoints by their external path, and
references by the mount point or variable that the service sees them under. -/
structure Service where
  name : String := ""
  image : String := ""
  runConfig : RunConfig := {}
  bindMounts : SortedMap BindMount := ∅
  tmpfs : SortedMap TmpfsMount := ∅
  httpEndpoints : SortedMap HttpEndpoint := ∅
  ports : List Port := []
  requiredServices : SortedSet := ∅
  serviceReferences : SortedMap ServiceReference := ∅
  volumes : SortedMap String := ∅
  dependencies : SortedMap DependencyReference := ∅
  hostResources : SortedMap HostResourceReference := ∅
  secretMounts : SortedMap SecretReference := ∅
  secretVariables : SortedMap SecretReference := ∅
  configs : SortedMap String := ∅
  deriving DecidableEq, Inhabited

/-- A helper service: it has no endpoints, ports, host resources or secrets. -/
structure AuxService where
  name : String := ""
  runConfig : RunConfig := {}
  bindMounts : SortedMap BindMount := ∅
  tmpfs : SortedMap TmpfsMount := ∅
  serviceReferences : SortedMap ServiceReference := ∅
  volumes : SortedMap String := ∅
  dependencies : SortedMap DependencyReference := ∅
  configs : SortedMap String := ∅
  deriving DecidableEq, Inhabited

structure HostResource where
  tags : SortedSet
  required : Bool
  deriving DecidableEq, Inhabited

structure Secret where
  type : String
  tags : SortedSet
  required : Bool
  deriving DecidableEq, Inhabited

inductive ConfigValue where
  | scalar (v : ConfigScalar)
  | list (vs : List ConfigScalar)
  deriving Inhabited

def ConfigValue.scalars : ConfigValue → List ConfigScalar
  | .scalar v => [v]
  | .list vs => vs

/-- A config with its default and options as values of its kind. -/
structure ConfigEntry where
  dataType : DataType := .string
  isList : Bool := false
  default : Option ConfigValue := none
  options : List ConfigScalar := []
  optionsExt : Bool := false
  inputType : String := ""
  typeOptions : SortedMap ConfigScalar := ∅
  delimiter : Option String := none
  required : Bool := false
  deriving Inhabited

structure Input where
  name : String
  description : Option String
  group : Option String
  deriving DecidableEq, Inhabited

structure Inputs where
  resources : SortedMap Input := ∅
  secrets : SortedMap Input := ∅
  configs : SortedMap Input := ∅
  groups : SortedMap Input := ∅
  deriving DecidableEq, Inhabited

def Inputs.isEmpty (i : Inputs) : Bool :=
  i.resources.isEmpty && i.secrets.isEmpty && i.configs.isEmpty && i.groups.isEmpty

end Module

structure Module where
  id : String := ""
  name : String := ""
  description : String := ""
  tags : SortedSet := ∅
  license : String := ""
  author : String := ""
  version : String := ""
  type : String := ""
  deploymentType : String := ""
  architectures : SortedSet := ∅
  services : SortedMap Module.Service := ∅
  auxServices : SortedMap Module.AuxService := ∅
  auxImageSources : SortedSet := ∅
  volumes : SortedSet := ∅
  dependencies : SortedMap String := ∅
  hostResources : SortedMap Module.HostResource := ∅
  secrets : SortedMap Module.Secret := ∅
  configs : SortedMap Module.ConfigEntry := ∅
  inputs : Module.Inputs := {}
  deriving Inhabited

end ModuleCompiler
