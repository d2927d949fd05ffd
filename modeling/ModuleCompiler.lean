import ModuleCompiler.Log.Sink
import ModuleCompiler.Main
import ModuleCompiler.Proofs.Binding.Bearer
import ModuleCompiler.Proofs.Binding.Slot
import ModuleCompiler.Proofs.Binding.Run
import ModuleCompiler.Proofs.Binding.Request
import ModuleCompiler.Proofs.Binding.Resolution
import ModuleCompiler.Proofs.Binding.FirstFault
import ModuleCompiler.Proofs.Binding.Passes
import ModuleCompiler.Proofs.Closure
import ModuleCompiler.Proofs.Generation.Check
import ModuleCompiler.Proofs.Generation.FirstFailure
import ModuleCompiler.Proofs.ServiceReferences
import ModuleCompiler.Proofs.Generation.Mounts
import ModuleCompiler.Proofs.Places
import ModuleCompiler.Proofs.Decode.Agreement
import ModuleCompiler.Proofs.Decode.Reordered
import ModuleCompiler.Proofs.Decode.Stable
import ModuleCompiler.Proofs.Decode.Entries
import ModuleCompiler.Proofs.Decode.Records
import ModuleCompiler.Proofs.Descriptor.Composed
import ModuleCompiler.Proofs.EntryOrder
import ModuleCompiler.Proofs.Field.DurationText
import ModuleCompiler.Proofs.Tree.Fields
import ModuleCompiler.Proofs.Tree.Finite
import ModuleCompiler.Proofs.Tree.Module
import ModuleCompiler.Proofs.Rendering
import ModuleCompiler.Proofs.Registration
import ModuleCompiler.Proofs.Generation.Locality
import ModuleCompiler.Proofs.Decode.Inserted
import ModuleCompiler.Proofs.Decode.Decided
import ModuleCompiler.Proofs.UnknownEntries
import ModuleCompiler.Proofs.Number.Decimal
import ModuleCompiler.Proofs.Field.PortText
import ModuleCompiler.Proofs.Generation.Ports
import ModuleCompiler.Proofs.Generation.Configs
import ModuleCompiler.Proofs.VersionAgreement
import ModuleCompiler.Proofs.Generation.Repeats
import ModuleCompiler.Proofs.Decode.Parts
import ModuleCompiler.Proofs.Number.Literal
import ModuleCompiler.Proofs.Decode.Untyped
import ModuleCompiler.Proofs.IntegerLiterals
import ModuleCompiler.Proofs.PortDecoding
import ModuleCompiler.Proofs.Generation.BindMounts
import ModuleCompiler.Proofs.Field.SizeText
import ModuleCompiler.Proofs.Generation.EndpointSettings
import ModuleCompiler.Proofs.Decode.Carried
import ModuleCompiler.Proofs.SettingsReadBack
import ModuleCompiler.Proofs.Log.Verbosity
import ModuleCompiler.Proofs.Settings.Layering
import ModuleCompiler.Proofs.Settings.Precedence
import ModuleCompiler.Proofs.Settings.Printed
import ModuleCompiler.Module.Arena
import ModuleCompiler.Module.Resolver
