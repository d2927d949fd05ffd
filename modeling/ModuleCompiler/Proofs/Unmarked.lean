import ModuleCompiler.Proofs.Compilation
import ModuleCompiler.Proofs.Descriptor.Composed

/-!
Compiling documents without their marks: they have the same module, or the same error but for its
place in the text.
-/

namespace ModuleCompiler

namespace CompileError

/-- The same error without its place in the text. -/
def unmarked : CompileError → CompileError
  | noDecoders => noDecoders
  | noVersion => noVersion
  | unknownVersion version => unknownVersion version
  | decode e => decode e.unmarked
  | generate e => generate e

/-- The place is all that is lost. -/
theorem message_unmarked (e : CompileError) : e.unmarked.message = e.message := by
  cases e with
  | decode e => cases e <;> rfl
  | _ => rfl

theorem unmarked_eq_iff {e e' : CompileError} (h : ∀ cause, e' ≠ .decode cause) :
    e.unmarked = e' ↔ e = e' := by
  cases e with
  | decode cause => exact ⟨fun he => absurd he.symm (h _), fun he => absurd he.symm (h _)⟩
  | _ => exact Iff.rfl

end CompileError

section Compile

variable (doc : Yaml.Document)

theorem Compiler.versionOf_unmarked :
    versionOf doc.unmarked = (versionOf doc).mapError DecodeError.unmarked := by
  rw [versionOf, versionOf, Descriptor.VersionMarker.composed_decoder.markBlind.run_unmarked]
  cases Descriptor.VersionMarker.decoder.run doc <;> rfl

theorem VersionEntry.v1_compile_unmarked :
    v1.compile doc.unmarked = (v1.compile doc).mapError CompileError.unmarked := by
  simp only [v1, Descriptor.composed_decoder.markBlind.run_unmarked]
  cases Descriptor.decoder.run doc with
  | error e => rfl
  | ok d =>
    dsimp only [Except.mapError]
    cases Module.ofDescriptor d <;> rfl

namespace Compiler

theorem standard_compile_unmarked :
    standard.compile doc.unmarked = (standard.compile doc).mapError CompileError.unmarked := by
  rw [standard_compile_eq, standard_compile_eq, versionOf_unmarked,
    VersionEntry.v1_compile_unmarked]
  rcases versionOf doc with e | _ | version
  · rfl
  · rfl
  · dsimp only [Except.mapError]
    split <;> rfl

theorem standard_compile_unmarked_ok {m : Module} :
    standard.compile doc.unmarked = .ok m ↔ standard.compile doc = .ok m := by
  rw [standard_compile_unmarked, mapError_eq_ok_iff]

theorem standard_compile_unmarked_error {e : CompileError} (h : ∀ cause, e ≠ .decode cause) :
    standard.compile doc.unmarked = .error e ↔ standard.compile doc = .error e := by
  simp only [standard_compile_unmarked, mapError_eq_error_iff, CompileError.unmarked_eq_iff h,
    exists_eq_right]

end Compiler

end Compile

end ModuleCompiler
