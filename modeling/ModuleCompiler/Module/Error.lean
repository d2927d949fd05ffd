import ModuleCompiler.Descriptor.Basic

/-!
Why a descriptor cannot be compiled, although it is well-formed.
-/

namespace ModuleCompiler

inductive ErrorCategory where
  | schema
  | typeCoercion
  | referential
  | conflict
  | range
  deriving DecidableEq, Repr

def ErrorCategory.name : ErrorCategory → String
  | schema => "schema"
  | typeCoercion => "type-coercion"
  | referential => "referential"
  | conflict => "conflict"
  | range => "range"

namespace Module

/-- Two mounts or endpoints in one place. -/
inductive MountError where
  | duplicate (key : String)
  /-- Endpoints published under one external path, with their internal paths. -/
  | duplicateEndpoint (key existing incoming : String)
  deriving DecidableEq, Repr

def MountError.message : MountError → String
  | duplicate key => s!"duplicate '{key}'"
  | duplicateEndpoint key existing incoming => s!"duplicate '{key}': '{existing}' & '{incoming}'"

inductive ServiceError where
  | mount (e : MountError)
  | port (e : PortError)
  deriving DecidableEq, Repr

namespace ServiceError

def message : ServiceError → String
  | mount e => e.message
  | port e => e.message

def category : ServiceError → ErrorCategory
  | mount _ => .conflict
  | port _ => .range

end ServiceError

inductive ServiceSection where
  | bindMounts
  | tmpfsMounts
  | httpEndpoints
  | ports
  deriving DecidableEq, Repr

def ServiceSection.name : ServiceSection → String
  | bindMounts => "bind mounts"
  | tmpfsMounts => "tmpfs mounts"
  | httpEndpoints => "http endpoints"
  | ports => "ports"

inductive ConfigError where
  | invalidDataType (name : String)
  | notAList (found : String)
  | typeOption (key : String) (cause : CoerceError)
  | value (cause : CoerceError)
  deriving DecidableEq, Repr

def ConfigError.message : ConfigError → String
  | invalidDataType name => s!"invalid data type '{name}'"
  | notAList found => s!"type mismatch: '{found}' != list"
  | typeOption key cause => s!"type option '{key}': {cause.message}"
  | value cause => cause.message

/-- What can be bound on a service by name. -/
inductive Family where
  | serviceReference
  | volume
  | dependency
  | hostResource
  | secretMount
  | secretVariable
  | config
  deriving DecidableEq, Repr

def Family.name : Family → String
  | serviceReference => "service reference"
  | volume => "volume"
  | dependency => "external dependency"
  | hostResource => "host resource"
  | secretMount => "secret mount"
  | secretVariable => "secret variable"
  | config => "config"

end Module

inductive GenerateError where
  | config (name : String) (cause : Module.ConfigError)
  | service (kind : ServiceKind) (id : String) (part : Module.ServiceSection)
      (cause : Module.ServiceError)
  | undefinedTarget (family : Module.Family) (kind : ServiceKind) (target : String)
  /-- Two entries are bound under one key of a service; each is told by its origin. -/
  | conflict (family : Module.Family) (target key existing incoming : String)
  deriving DecidableEq, Repr

namespace GenerateError

def message : GenerateError → String
  | config name cause => s!"error parsing config '{name}': {cause.message}"
  | service kind id part cause => s!"{kind.name} '{id}' invalid {part.name}: {cause.message}"
  | undefinedTarget family kind target =>
    s!"invalid {family.name}: {kind.name} '{target}' not defined"
  | conflict family target key existing incoming =>
    s!"invalid {family.name}: '{existing}' & '{incoming}' -> '{target}' -> '{key}'"

def category : GenerateError → ErrorCategory
  | config .. => .typeCoercion
  | service _ _ _ cause => cause.category
  | undefinedTarget .. => .referential
  | conflict .. => .conflict

end GenerateError

end ModuleCompiler
