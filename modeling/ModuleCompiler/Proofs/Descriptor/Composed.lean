import ModuleCompiler.Descriptor.Decode
import ModuleCompiler.Proofs.Decode.Composed

/-!
Descriptors are decoded part by part, and no two fields of a record store in one place.
-/

namespace ModuleCompiler.Descriptor

open Decode

@[simp] theorem RunConfig.composed_decoder : Composed RunConfig.decoder :=
  .record _ _ (by simp [RunConfig.fields]) (by simp [RunConfig.fields])

@[simp] theorem BindMount.composed_decoder : Composed BindMount.decoder :=
  .record _ _ (by simp [BindMount.fields]) (by simp [BindMount.fields])

@[simp] theorem TmpfsMount.composed_decoder : Composed TmpfsMount.decoder :=
  .record _ _ (by simp [TmpfsMount.fields]) (by simp [TmpfsMount.fields])

@[simp] theorem ProxyConf.composed_decoder : Composed ProxyConf.decoder :=
  .record _ _ (by simp [ProxyConf.fields]) (by simp [ProxyConf.fields])

@[simp] theorem StringSub.composed_decoder : Composed StringSub.decoder :=
  .record _ _ (by simp [StringSub.fields]) (by simp [StringSub.fields])

@[simp] theorem HttpEndpoint.composed_decoder : Composed HttpEndpoint.decoder :=
  .record _ _ (by simp [HttpEndpoint.fields]) (by simp [HttpEndpoint.fields])

@[simp] theorem ServicePort.composed_decoder : Composed ServicePort.decoder :=
  .record _ _ (by simp [ServicePort.fields]) (by simp [ServicePort.fields])

@[simp] theorem Service.composed_decoder : Composed Service.decoder :=
  .record _ _ (by simp [Service.fields]) (by simp [Service.fields])

@[simp] theorem AuxService.composed_decoder : Composed AuxService.decoder :=
  .record _ _ (by simp [AuxService.fields]) (by simp [AuxService.fields])

@[simp] theorem DependencyTarget.composed_decoder : Composed DependencyTarget.decoder :=
  .record _ _ (by simp [DependencyTarget.fields]) (by simp [DependencyTarget.fields])

@[simp] theorem VolumeTarget.composed_decoder : Composed VolumeTarget.decoder :=
  .record _ _ (by simp [VolumeTarget.fields]) (by simp [VolumeTarget.fields])

@[simp] theorem ModuleDependency.composed_decoder : Composed ModuleDependency.decoder :=
  .record _ _ (by simp [ModuleDependency.fields])
    (by simp [ModuleDependency.fields, DependencyTarget.composed_decoder.list])

@[simp] theorem UserInput.composed_decoder : Composed UserInput.decoder :=
  .record _ _ (by simp [UserInput.fields]) (by simp [UserInput.fields])

@[simp] theorem HostResourceTarget.composed_decoder : Composed HostResourceTarget.decoder :=
  .record _ _ (by simp [HostResourceTarget.fields]) (by simp [HostResourceTarget.fields])

@[simp] theorem HostResource.composed_decoder : Composed HostResource.decoder :=
  .record _ _ (by simp [HostResource.fields]) (by simp [HostResource.fields])

@[simp] theorem SecretTarget.composed_decoder : Composed SecretTarget.decoder :=
  .record _ _ (by simp [SecretTarget.fields]) (by simp [SecretTarget.fields])

@[simp] theorem Secret.composed_decoder : Composed Secret.decoder :=
  .record _ _ (by simp [Secret.fields]) (by simp [Secret.fields])

@[simp] theorem ConfigUserInput.composed_decoder : Composed ConfigUserInput.decoder :=
  .record _ _ (by simp [ConfigUserInput.fields]) (by simp [ConfigUserInput.fields])

@[simp] theorem ConfigTarget.composed_decoder : Composed ConfigTarget.decoder :=
  .record _ _ (by simp [ConfigTarget.fields]) (by simp [ConfigTarget.fields])

@[simp] theorem ConfigValue.composed_decoder : Composed ConfigValue.decoder :=
  .record _ _ (by simp [ConfigValue.fields]) (by simp [ConfigValue.fields])

@[simp] theorem InputGroup.composed_decoder : Composed InputGroup.decoder :=
  .record _ _ (by simp [InputGroup.fields]) (by simp [InputGroup.fields])

theorem composed_decoder : Composed decoder :=
  .record _ _ (by simp [fields])
    (by simp [fields, DependencyTarget.composed_decoder.list, VolumeTarget.composed_decoder.list])

theorem VersionMarker.composed_decoder : Composed VersionMarker.decoder :=
  (Composed.record _ _ (by simp [VersionMarker.fields]) (by simp [VersionMarker.fields])).option

end ModuleCompiler.Descriptor
