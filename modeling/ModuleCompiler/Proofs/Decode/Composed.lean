import ModuleCompiler.Proofs.Decode.Decided
import ModuleCompiler.Proofs.Decode.Records
import ModuleCompiler.Proofs.Decode.Unmarked

/-!
Decoders put together from those of single values. What each of the parts keeps, the whole keeps: it
sees neither the order of entries nor their marks, and trees without aliases decide what it reads.
-/

namespace ModuleCompiler

namespace Decode

/-- How the decoders of descriptors are made. -/
inductive Composed : {α : Type} → Decoder α → Prop
  | text : Composed Decode.text
  | bool : Composed Decode.bool
  | uint16 : Composed Decode.uint16
  | uint32 : Composed Decode.uint32
  | rawValue : Composed RawValue.decoder
  | portSpec : Composed PortSpec.decoder
  | byteSize : Composed byteSizeDecoder
  | fileMode : Composed fileModeDecoder
  | duration : Composed Duration.decoder
  | command : Composed commandDecoder
  | map {α β : Type} {decoder : Decoder α} (f : α → β) :
      Composed decoder → Composed fun p n => f <$> decoder p n
  | option {α : Type} {decoder : Decoder α} : Composed decoder → Composed (Decode.option decoder)
  | list {α : Type} {decoder : Decoder α} : Composed decoder → Composed (Decode.list decoder)
  | table {α : Type} {decoder : Decoder α} : Composed decoder → Composed (Decode.table decoder)
  | record {ρ : Type} {known : List (FieldDecoder ρ)} (name : String) (initial : ρ) :
      known.Pairwise FieldDecoder.Commutes → (∀ f ∈ known, Composed f.read) →
      Composed (Decode.record name known initial)

attribute [simp] Composed.text Composed.bool Composed.uint16 Composed.uint32 Composed.rawValue
  Composed.portSpec Composed.byteSize Composed.fileMode Composed.duration Composed.command
  Composed.option Composed.list Composed.table

namespace Composed

variable {α : Type} {decoder : Decoder α}

@[simp] theorem field (h : Composed decoder) (name : String) (store : α → ρ → ρ) :
    Composed (Decode.field name decoder store).read :=
  h.map store

theorem stable (h : Composed decoder) : Stable decoder := by
  induction h with
  | text => exact stable_text
  | bool => exact stable_bool
  | uint16 => exact stable_uint16
  | uint32 => exact stable_uint32
  | rawValue => exact RawValue.stable_decoder
  | portSpec => exact PortSpec.stable_decoder
  | byteSize => exact stable_byteSizeDecoder
  | fileMode => exact stable_fileModeDecoder
  | duration => exact Duration.stable_decoder
  | command => exact stable_commandDecoder
  | map f _ ih => exact ih.map f
  | option _ ih => exact ih.option
  | list _ ih => exact ih.list
  | table _ ih => exact ih.table
  | record name initial hcommute _ ih => exact stable_record ih hcommute name initial

theorem steady (h : Composed decoder) : Steady decoder := by
  induction h with
  | text => exact steady_text
  | bool => exact steady_bool
  | uint16 => exact steady_uint16
  | uint32 => exact steady_uint32
  | rawValue => exact RawValue.steady_decoder
  | portSpec => exact PortSpec.steady_decoder
  | byteSize => exact steady_byteSizeDecoder
  | fileMode => exact steady_fileModeDecoder
  | duration => exact Duration.steady_decoder
  | command => exact steady_commandDecoder
  | map f _ ih => exact ih.map f
  | option _ ih => exact ih.option
  | list _ ih => exact ih.list
  | table _ ih => exact ih.table
  | record name initial _ _ ih => exact steady_record ih name initial

theorem markBlind (h : Composed decoder) : MarkBlind decoder := by
  induction h with
  | text => exact markBlind_text
  | bool => exact markBlind_bool
  | uint16 => exact (markBlind_unsigned 16).map _
  | uint32 => exact (markBlind_unsigned 32).map _
  | rawValue => exact RawValue.markBlind_decoder
  | portSpec => exact PortSpec.markBlind_decoder
  | byteSize => exact markBlind_byteSizeDecoder
  | fileMode => exact markBlind_fileModeDecoder
  | duration => exact Duration.markBlind_decoder
  | command => exact markBlind_commandDecoder
  | map f _ ih => exact ih.map f
  | option _ ih => exact ih.option
  | list _ ih => exact ih.list
  | table _ ih => exact ih.table
  | record name initial _ _ ih => exact markBlind_record ih name initial

end Composed

end Decode

end ModuleCompiler
