import ModuleCompiler.Module.Basic
import ModuleCompiler.Module.Error

/-!
Configs: their defaults and options as values of one kind.
-/

namespace ModuleCompiler.Module

def defaultDelimiter : String := ","

namespace ConfigEntry

def coerceAll (kind : DataType) (vs : List RawValue) : Except CoerceError (List ConfigScalar) :=
  vs.mapM (·.coerce kind)

/-- Texts unless the descriptor says otherwise. -/
def kindOf : Option String → Except ConfigError DataType
  | none => .ok .string
  | some name =>
    match DataType.ofName? name with
    | some kind => .ok kind
    | none => .error (.invalidDataType name)

/-- The default, which is a list if the config is one. -/
def defaultOf (kind : DataType) (isList : Bool) : RawValue → Except ConfigError (Option ConfigValue)
  | .absent => .ok none
  | .list items =>
    if isList then
      match coerceAll kind items with
      | .ok ss => .ok (some (.list ss))
      | .error e => .error (.value e)
    else single (.list items)
  | v => if isList then .error (.notAList v.kind) else single v
where
  single (v : RawValue) : Except ConfigError (Option ConfigValue) :=
    match v.coerce kind with
    | .ok s => .ok (some (.scalar s))
    | .error e => .error (.value e)

def optionsOf (kind : DataType) (vs : List RawValue) : Except ConfigError (List ConfigScalar) :=
  (coerceAll kind vs).mapError .value

/-- Options of the input, each of the kind it has by itself. -/
def typeOptionsOf (options : SortedMap RawValue) : Except ConfigError (SortedMap ConfigScalar) :=
  options.traverse fun key v => v.toScalar.mapError (.typeOption key)

def inputTypeOptions : Option Descriptor.ConfigUserInput →
    Except ConfigError (SortedMap ConfigScalar)
  | none => .ok ∅
  | some input => typeOptionsOf input.typeOptions

def ofDescriptor (c : Descriptor.ConfigValue) : Except ConfigError ConfigEntry := do
  let kind ← kindOf c.dataType
  let default ← defaultOf kind c.isList c.value
  let options ← optionsOf kind c.options
  let typeOptions ← inputTypeOptions c.userInput
  return {
    dataType := kind
    isList := c.isList
    default := default
    options := options
    optionsExt := c.optionsExt
    inputType := (c.userInput.map (·.type)).getD ""
    typeOptions := typeOptions
    delimiter := if c.isList then some (c.delimiter.getD defaultDelimiter) else none
    required := !c.optional }

def ofDescriptors (cs : SortedMap Descriptor.ConfigValue) :
    Except GenerateError (SortedMap ConfigEntry) :=
  cs.traverse fun name c => (ofDescriptor c).mapError (.config name)

end ConfigEntry

end ModuleCompiler.Module
