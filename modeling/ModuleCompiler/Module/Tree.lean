import ModuleCompiler.Module.Basic
import ModuleCompiler.Tree.Basic

/-!
Modules as trees. Empty tables, lists and texts and absent values are left out where the format
allows it.
-/

namespace ModuleCompiler.Module

/-- The fields of a record in their order; a list of none or one stands for a field that may be
left out. -/
def fieldsOf (parts : List (List (String × Tree))) : Tree := .record parts.flatten

def always (name : String) (t : Tree) : List (String × Tree) := [(name, t)]

def present (name : String) (x : Option α) (toTree : α → Tree) : List (String × Tree) :=
  match x with
  | none => []
  | some a => [(name, toTree a)]

def nonempty (name s : String) : List (String × Tree) :=
  if s.isEmpty then [] else [(name, .text s)]

def listed (name : String) (xs : List α) (toTree : α → Tree) : List (String × Tree) :=
  if xs.isEmpty then [] else [(name, .list (xs.map toTree))]

def tableTree (m : SortedMap α) (toTree : α → Tree) : Tree :=
  .record (m.toList.map fun e => (e.1, toTree e.2))

def tabled (name : String) (m : SortedMap α) (toTree : α → Tree) : List (String × Tree) :=
  if m.isEmpty then [] else [(name, tableTree m toTree)]

def durationTree (d : Duration) : Tree := .text d.toText

def RunConfig.toTree (r : RunConfig) : Tree :=
  fieldsOf [
    always "maxRetries" (.integer r.maxRetries.toNat),
    always "runOnce" (.bool r.runOnce),
    always "stopTimeout" (durationTree r.stopTimeout),
    present "stopSignal" r.stopSignal .text,
    always "pseudoTTY" (.bool r.pseudoTty),
    listed "command" r.command .text]

def BindMount.toTree (m : BindMount) : Tree :=
  fieldsOf [always "source" (.text m.source), always "readOnly" (.bool m.readOnly)]

def TmpfsMount.toTree (m : TmpfsMount) : Tree :=
  fieldsOf [always "size" (.integer m.size.toNat), always "mode" (.integer m.mode.toNat)]

def ProxyConf.toTree (p : ProxyConf) : Tree :=
  fieldsOf [
    tabled "headers" p.headers .text,
    always "websocket" (.bool p.websocket),
    present "readTimeout" p.readTimeout durationTree]

def StringSub.toTree (s : StringSub) : Tree :=
  fieldsOf [
    always "replaceOnce" (.bool s.replaceOnce),
    listed "mimeTypes" s.mimeTypes .text,
    tabled "filters" s.filters .text]

def portNumber (n : UInt16) : Tree := .integer n.toNat

def HttpEndpoint.toTree (e : HttpEndpoint) : Tree :=
  fieldsOf [
    always "name" (.text e.name),
    present "port" e.port portNumber,
    always "path" (.text e.path),
    present "proxyConf" e.proxyConf ProxyConf.toTree,
    present "stringSub" e.stringSub StringSub.toTree]

def Port.toTree (p : Port) : Tree :=
  fieldsOf [
    present "name" p.name .text,
    always "number" (portNumber p.number),
    always "protocol" (.text p.protocol),
    listed "bindings" p.bindings portNumber]

def ServiceReference.toTree (r : ServiceReference) : Tree :=
  fieldsOf [always "ref" (.text r.reference), present "template" r.template .text]

def DependencyReference.toTree (r : DependencyReference) : Tree :=
  fieldsOf [
    always "moduleId" (.text r.moduleId),
    always "service" (.text r.service),
    present "template" r.template .text]

def HostResourceReference.toTree (r : HostResourceReference) : Tree :=
  fieldsOf [always "ref" (.text r.reference), always "readOnly" (.bool r.readOnly)]

def SecretReference.toTree (r : SecretReference) : Tree :=
  fieldsOf [always "ref" (.text r.reference), present "item" r.item .text]

def Service.toTree (s : Service) : Tree :=
  fieldsOf [
    always "name" (.text s.name),
    always "image" (.text s.image),
    always "runConfig" s.runConfig.toTree,
    tabled "bindMounts" s.bindMounts BindMount.toTree,
    tabled "tmpfs" s.tmpfs TmpfsMount.toTree,
    tabled "httpEndpoints" s.httpEndpoints HttpEndpoint.toTree,
    listed "ports" s.ports Port.toTree,
    listed "requiredSrv" s.requiredServices.toList .text,
    tabled "srvReferences" s.serviceReferences ServiceReference.toTree,
    tabled "volumes" s.volumes .text,
    tabled "extDependencies" s.dependencies DependencyReference.toTree,
    tabled "hostResources" s.hostResources HostResourceReference.toTree,
    tabled "secretMounts" s.secretMounts SecretReference.toTree,
    tabled "secretVars" s.secretVariables SecretReference.toTree,
    tabled "configs" s.configs .text]

def AuxService.toTree (s : AuxService) : Tree :=
  fieldsOf [
    always "name" (.text s.name),
    always "runConfig" s.runConfig.toTree,
    tabled "bindMounts" s.bindMounts BindMount.toTree,
    tabled "tmpfs" s.tmpfs TmpfsMount.toTree,
    tabled "srvReferences" s.serviceReferences ServiceReference.toTree,
    tabled "volumes" s.volumes .text,
    tabled "extDependencies" s.dependencies DependencyReference.toTree,
    tabled "configs" s.configs .text]

def HostResource.toTree (r : HostResource) : Tree :=
  fieldsOf [listed "tags" r.tags.toList .text, always "required" (.bool r.required)]

def Secret.toTree (s : Secret) : Tree :=
  fieldsOf [
    always "type" (.text s.type),
    listed "tags" s.tags.toList .text,
    always "required" (.bool s.required)]

def scalarTree : ConfigScalar → Tree
  | .string s => .text s
  | .bool b => .bool b
  | .int n => .integer n.toInt
  | .float x => .float x

def ConfigValue.toTree : ConfigValue → Tree
  | .scalar v => scalarTree v
  | .list vs => .list (vs.map scalarTree)

def ConfigEntry.toTree (c : ConfigEntry) : Tree :=
  fieldsOf [
    always "dataType" (.text c.dataType.name),
    always "isSlice" (.bool c.isList),
    present "default" c.default ConfigValue.toTree,
    listed "options" c.options scalarTree,
    always "optExt" (.bool c.optionsExt),
    nonempty "type" c.inputType,
    tabled "typeOpt" c.typeOptions scalarTree,
    present "delimiter" c.delimiter .text,
    always "required" (.bool c.required)]

def Input.toTree (i : Input) : Tree :=
  fieldsOf [
    always "name" (.text i.name),
    present "description" i.description .text,
    present "group" i.group .text]

def Inputs.toTree (i : Inputs) : Tree :=
  fieldsOf [
    tabled "resources" i.resources Input.toTree,
    tabled "secrets" i.secrets Input.toTree,
    tabled "configs" i.configs Input.toTree,
    tabled "groups" i.groups Input.toTree]

def toTree (m : Module) : Tree :=
  fieldsOf [
    always "id" (.text m.id),
    always "name" (.text m.name),
    nonempty "description" m.description,
    listed "tags" m.tags.toList .text,
    nonempty "license" m.license,
    nonempty "author" m.author,
    always "version" (.text m.version),
    always "type" (.text m.type),
    nonempty "deploymentType" m.deploymentType,
    listed "architectures" m.architectures.toList .text,
    always "services" (tableTree m.services Service.toTree),
    tabled "auxServices" m.auxServices AuxService.toTree,
    listed "auxImgSrc" m.auxImageSources.toList .text,
    listed "volumes" m.volumes.toList .text,
    tabled "dependencies" m.dependencies .text,
    tabled "hostResources" m.hostResources HostResource.toTree,
    tabled "secrets" m.secrets Secret.toTree,
    tabled "configs" m.configs ConfigEntry.toTree,
    if m.inputs.isEmpty then [] else always "inputs" m.inputs.toTree]

end ModuleCompiler.Module
