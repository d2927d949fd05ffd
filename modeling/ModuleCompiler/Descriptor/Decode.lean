import ModuleCompiler.Descriptor.Basic
import ModuleCompiler.Decode.Value

/-!
Descriptors from documents: which keys each record knows, and how their values are read.
-/

namespace ModuleCompiler

open Decode

namespace Descriptor

def RunConfig.fields : List (FieldDecoder RunConfig) :=
  [field "maxRetries" (option uint32) fun v r => { r with maxRetries := v },
    field "runOnce" bool fun v r => { r with runOnce := v },
    field "stopTimeout" (option Duration.decoder) fun v r => { r with stopTimeout := v },
    field "stopSignal" (option text) fun v r => { r with stopSignal := v },
    field "pseudoTTY" bool fun v r => { r with pseudoTty := v },
    field "command" commandDecoder fun v r => { r with command := v }]

def RunConfig.decoder : Decoder RunConfig := record "RunConfig" RunConfig.fields {}

def BindMount.fields : List (FieldDecoder BindMount) :=
  [field "mountPoint" text fun v r => { r with mountPoint := v },
    field "source" text fun v r => { r with source := v },
    field "readOnly" bool fun v r => { r with readOnly := v }]

def BindMount.decoder : Decoder BindMount := record "BindMount" BindMount.fields {}

def TmpfsMount.fields : List (FieldDecoder TmpfsMount) :=
  [field "mountPoint" text fun v r => { r with mountPoint := v },
    field "size" byteSizeDecoder fun v r => { r with size := v },
    field "mode" (option fileModeDecoder) fun v r => { r with mode := v }]

def TmpfsMount.decoder : Decoder TmpfsMount := record "TmpfsMount" TmpfsMount.fields {}

def ProxyConf.fields : List (FieldDecoder ProxyConf) :=
  [field "headers" (table text) fun v r => { r with headers := v },
    field "websocket" bool fun v r => { r with websocket := v },
    field "readTimeout" (option Duration.decoder) fun v r => { r with readTimeout := v }]

def ProxyConf.decoder : Decoder ProxyConf := record "ProxyConf" ProxyConf.fields {}

def StringSub.fields : List (FieldDecoder StringSub) :=
  [field "replaceOnce" bool fun v r => { r with replaceOnce := v },
    field "mimeTypes" (list text) fun v r => { r with mimeTypes := v },
    field "filters" (table text) fun v r => { r with filters := v }]

def StringSub.decoder : Decoder StringSub := record "StringSub" StringSub.fields {}

def HttpEndpoint.fields : List (FieldDecoder HttpEndpoint) :=
  [field "name" text fun v r => { r with name := v },
    field "path" text fun v r => { r with path := v },
    field "port" (option uint16) fun v r => { r with port := v },
    field "extPath" (option text) fun v r => { r with extPath := v },
    field "proxyConf" (option ProxyConf.decoder) fun v r => { r with proxyConf := v },
    field "stringSub" (option StringSub.decoder) fun v r => { r with stringSub := v }]

def HttpEndpoint.decoder : Decoder HttpEndpoint := record "HttpEndpoint" HttpEndpoint.fields {}

def ServicePort.fields : List (FieldDecoder ServicePort) :=
  [field "name" (option text) fun v r => { r with name := v },
    field "port" PortSpec.decoder fun v r => { r with port := v },
    field "hostPort" (option PortSpec.decoder) fun v r => { r with hostPort := v },
    field "protocol" (option text) fun v r => { r with protocol := v }]

def ServicePort.decoder : Decoder ServicePort := record "SrvPort" ServicePort.fields {}

def Service.fields : List (FieldDecoder Service) :=
  [field "name" text fun v r => { r with name := v },
    field "image" text fun v r => { r with image := v },
    field "runConfig" RunConfig.decoder fun v r => { r with runConfig := v },
    field "include" (list BindMount.decoder) fun v r => { r with bindMounts := v },
    field "tmpfs" (list TmpfsMount.decoder) fun v r => { r with tmpfs := v },
    field "httpEndpoints" (list HttpEndpoint.decoder) fun v r => { r with httpEndpoints := v },
    field "ports" (list ServicePort.decoder) fun v r => { r with ports := v },
    field "requiredServices" (list text) fun v r => { r with requiredServices := v }]

def Service.decoder : Decoder Service := record "Service" Service.fields {}

def AuxService.fields : List (FieldDecoder AuxService) :=
  [field "name" text fun v r => { r with name := v },
    field "runConfig" RunConfig.decoder fun v r => { r with runConfig := v },
    field "include" (list BindMount.decoder) fun v r => { r with bindMounts := v },
    field "tmpfs" (list TmpfsMount.decoder) fun v r => { r with tmpfs := v }]

def AuxService.decoder : Decoder AuxService := record "AuxService" AuxService.fields {}

def DependencyTarget.fields : List (FieldDecoder DependencyTarget) :=
  [field "refVar" text fun v r => { r with refVar := v },
    field "template" (option text) fun v r => { r with template := v },
    field "services" (list text) fun v r => { r with services := v },
    field "auxServices" (list text) fun v r => { r with auxServices := v }]

def DependencyTarget.decoder : Decoder DependencyTarget :=
  record "DependencyTarget" DependencyTarget.fields {}

def VolumeTarget.fields : List (FieldDecoder VolumeTarget) :=
  [field "mountPoint" text fun v r => { r with mountPoint := v },
    field "services" (list text) fun v r => { r with services := v },
    field "auxServices" (list text) fun v r => { r with auxServices := v }]

def VolumeTarget.decoder : Decoder VolumeTarget := record "VolumeTarget" VolumeTarget.fields {}

def ModuleDependency.fields : List (FieldDecoder ModuleDependency) :=
  [field "version" text fun v r => { r with version := v },
    field "requiredServices" (table (list DependencyTarget.decoder)) fun v r =>
      { r with requiredServices := v }]

def ModuleDependency.decoder : Decoder ModuleDependency :=
  record "ModuleDependency" ModuleDependency.fields {}

def UserInput.fields : List (FieldDecoder UserInput) :=
  [field "name" text fun v r => { r with name := v },
    field "description" (option text) fun v r => { r with description := v },
    field "group" (option text) fun v r => { r with group := v }]

def UserInput.decoder : Decoder UserInput := record "UserInput" UserInput.fields {}

def HostResourceTarget.fields : List (FieldDecoder HostResourceTarget) :=
  [field "mountPoint" text fun v r => { r with mountPoint := v },
    field "services" (list text) fun v r => { r with services := v },
    field "readOnly" bool fun v r => { r with readOnly := v }]

def HostResourceTarget.decoder : Decoder HostResourceTarget :=
  record "HostResourceTarget" HostResourceTarget.fields {}

def HostResource.fields : List (FieldDecoder HostResource) :=
  [field "tags" (list text) fun v r => { r with tags := v },
    field "userInput" (option UserInput.decoder) fun v r => { r with userInput := v },
    field "optional" bool fun v r => { r with optional := v },
    field "targets" (list HostResourceTarget.decoder) fun v r => { r with targets := v }]

def HostResource.decoder : Decoder HostResource := record "HostResource" HostResource.fields {}

def SecretTarget.fields : List (FieldDecoder SecretTarget) :=
  [field "mountPoint" (option text) fun v r => { r with mountPoint := v },
    field "refVar" (option text) fun v r => { r with refVar := v },
    field "item" (option text) fun v r => { r with item := v },
    field "services" (list text) fun v r => { r with services := v }]

def SecretTarget.decoder : Decoder SecretTarget := record "SecretTarget" SecretTarget.fields {}

def Secret.fields : List (FieldDecoder Secret) :=
  [field "type" text fun v r => { r with type := v },
    field "tags" (list text) fun v r => { r with tags := v },
    field "userInput" (option UserInput.decoder) fun v r => { r with userInput := v },
    field "optional" bool fun v r => { r with optional := v },
    field "targets" (list SecretTarget.decoder) fun v r => { r with targets := v }]

def Secret.decoder : Decoder Secret := record "Secret" Secret.fields {}

def ConfigUserInput.fields : List (FieldDecoder ConfigUserInput) :=
  [field "name" text fun v r => { r with name := v },
    field "description" (option text) fun v r => { r with description := v },
    field "group" (option text) fun v r => { r with group := v },
    field "type" text fun v r => { r with type := v },
    field "typeOptions" (table RawValue.decoder) fun v r => { r with typeOptions := v }]

def ConfigUserInput.decoder : Decoder ConfigUserInput :=
  record "ConfigUserInput" ConfigUserInput.fields {}

def ConfigTarget.fields : List (FieldDecoder ConfigTarget) :=
  [field "refVar" text fun v r => { r with refVar := v },
    field "services" (list text) fun v r => { r with services := v },
    field "auxServices" (list text) fun v r => { r with auxServices := v }]

def ConfigTarget.decoder : Decoder ConfigTarget := record "ConfigTarget" ConfigTarget.fields {}

def ConfigValue.fields : List (FieldDecoder ConfigValue) :=
  [field "value" RawValue.decoder fun v r => { r with value := v },
    field "options" (list RawValue.decoder) fun v r => { r with options := v },
    field "optionsExt" bool fun v r => { r with optionsExt := v },
    field "dataType" (option text) fun v r => { r with dataType := v },
    field "isList" bool fun v r => { r with isList := v },
    field "delimiter" (option text) fun v r => { r with delimiter := v },
    field "userInput" (option ConfigUserInput.decoder) fun v r => { r with userInput := v },
    field "targets" (list ConfigTarget.decoder) fun v r => { r with targets := v },
    field "optional" bool fun v r => { r with optional := v }]

def ConfigValue.decoder : Decoder ConfigValue := record "ConfigValue" ConfigValue.fields {}

def InputGroup.fields : List (FieldDecoder InputGroup) :=
  [field "name" text fun v r => { r with name := v },
    field "description" (option text) fun v r => { r with description := v },
    field "group" (option text) fun v r => { r with group := v }]

def InputGroup.decoder : Decoder InputGroup := record "InputGroup" InputGroup.fields {}

def fields : List (FieldDecoder Descriptor) :=
  [field "modfileVersion" text fun v r => { r with modfileVersion := v },
    field "id" text fun v r => { r with id := v },
    field "name" text fun v r => { r with name := v },
    field "description" text fun v r => { r with description := v },
    field "tags" (list text) fun v r => { r with tags := v },
    field "license" text fun v r => { r with license := v },
    field "author" text fun v r => { r with author := v },
    field "version" text fun v r => { r with version := v },
    field "type" text fun v r => { r with type := v },
    field "deploymentType" text fun v r => { r with deploymentType := v },
    field "architectures" (list text) fun v r => { r with architectures := v },
    field "services" (table Service.decoder) fun v r => { r with services := v },
    field "auxServices" (table AuxService.decoder) fun v r => { r with auxServices := v },
    field "auxImageSources" (list text) fun v r => { r with auxImageSources := v },
    field "serviceReferences" (table (list DependencyTarget.decoder)) fun v r =>
      { r with serviceReferences := v },
    field "volumes" (table (list VolumeTarget.decoder)) fun v r => { r with volumes := v },
    field "dependencies" (table ModuleDependency.decoder) fun v r => { r with dependencies := v },
    (field "hostResources" (table HostResource.decoder) fun v r =>
      { r with hostResources := v }).orNamed "resources",
    field "secrets" (table Secret.decoder) fun v r => { r with secrets := v },
    field "configs" (table ConfigValue.decoder) fun v r => { r with configs := v },
    field "inputGroups" (table InputGroup.decoder) fun v r => { r with inputGroups := v }]

def decoder : Decoder Descriptor := record "ModFile" fields {}

/-- Only the version that a document says it is written for. -/
structure VersionMarker where
  version : Option String := none

def VersionMarker.fields : List (FieldDecoder VersionMarker) :=
  [field "modfileVersion" (option text) fun v r => { r with version := v }]

def VersionMarker.decoder : Decoder (Option VersionMarker) :=
  option (record "VersionProbe" VersionMarker.fields {})

end Descriptor

end ModuleCompiler
