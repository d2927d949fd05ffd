import ModuleCompiler.Compiler.Basic
import ModuleCompiler.Proofs.Outcome

/-!
When a document has a module: its version is known, it is a descriptor of that version, and the
descriptor has a module.
-/

namespace ModuleCompiler

namespace Module

theorem eq_assemble_of_ofDescriptor {d : Descriptor} {m : Module}
    (h : Module.ofDescriptor d = .ok m) :
    ∃ configs t t', ConfigEntry.ofDescriptors d.configs = .ok configs ∧
      ServiceTables.ofDescriptor d = .ok t ∧ resolve t d = .ok t' ∧ m = assemble d configs t' := by
  simp only [Module.ofDescriptor, bind_eq_ok_iff, pure_eq_ok_iff] at h
  obtain ⟨configs, hc, t, ht, t', hr, rfl⟩ := h
  exact ⟨configs, t, t', hc, ht, hr, rfl⟩

end Module

/-- What comes of a descriptor, once a document is known to be one. -/
def Generated (outcome : Except CompileError Module) : Prop :=
  (∃ m, outcome = .ok m) ∨ ∃ e, outcome = .error (.generate e)

section Generated

variable {doc : Yaml.Document} {outcome : Except CompileError Module}

theorem generated_ofDescriptor (d : Descriptor) :
    Generated ((Module.ofDescriptor d).mapError .generate) := by
  cases Module.ofDescriptor d with
  | ok m => exact .inl ⟨m, rfl⟩
  | error e => exact .inr ⟨e, rfl⟩

theorem VersionEntry.v1_compile_eq_iff (h : Generated outcome) :
    v1.compile doc = outcome ↔ ∃ d, Descriptor.decoder.run doc = .ok d ∧
      (Module.ofDescriptor d).mapError .generate = outcome := by
  simp only [v1]
  cases Descriptor.decoder.run doc with
  | error e => rcases h with ⟨m, rfl⟩ | ⟨e, rfl⟩ <;> simp
  | ok d => simp

namespace Compiler

theorem compile_eq_iff {c : Compiler} (h : Generated outcome) :
    c.compile doc = outcome ↔ c.registry.isEmpty = false ∧
      ∃ version entry, versionOf doc = .ok (some version) ∧
        c.registry.get? version = some entry ∧ entry.compile doc = outcome := by
  simp only [compile]
  cases c.registry.isEmpty with
  | true => rcases h with ⟨m, rfl⟩ | ⟨e, rfl⟩ <;> simp
  | false =>
    rcases versionOf doc with e | _ | version
    · rcases h with ⟨m, rfl⟩ | ⟨e, rfl⟩ <;> simp
    · rcases h with ⟨m, rfl⟩ | ⟨e, rfl⟩ <;> simp
    · cases hv : c.registry.get? version with
      | none => rcases h with ⟨m, rfl⟩ | ⟨e, rfl⟩ <;> simp [hv]
      | some entry => simp [hv]

theorem get?_standard (version : String) :
    standard.registry.get? version =
      if version = VersionEntry.v1.version then some .v1 else none := by
  simp only [standard, Registry.get?, SortedMap.get?_insert, SortedMap.get?_empty]

theorem standard_compile_eq_iff (h : Generated outcome) : standard.compile doc = outcome ↔
    versionOf doc = .ok (some VersionEntry.v1.version) ∧ ∃ d, Descriptor.decoder.run doc = .ok d ∧
      (Module.ofDescriptor d).mapError .generate = outcome := by
  have hs : standard.registry.isEmpty = false := rfl
  simp only [compile_eq_iff h, hs, true_and, get?_standard, Option.ite_none_right_eq_some,
    Option.some.injEq, ← VersionEntry.v1_compile_eq_iff h]
  constructor
  · rintro ⟨_, _, hv, ⟨rfl, rfl⟩, ho⟩
    exact ⟨hv, ho⟩
  · rintro ⟨hv, ho⟩
    exact ⟨_, _, hv, ⟨rfl, rfl⟩, ho⟩

end Compiler

end Generated

/-- A document has a module if it is a descriptor, and then it is the module of that descriptor. -/
theorem descriptor_of_compile {bytes : ByteArray} {m : Module} (h : compile bytes = .ok m) :
    ∃ d, Descriptor.decoder.run (.ofBytes bytes) = .ok d ∧ Module.ofDescriptor d = .ok m := by
  obtain ⟨_, d, hd, hm⟩ := (Compiler.standard_compile_eq_iff (.inl ⟨m, rfl⟩)).1 h
  exact ⟨d, hd, mapError_eq_ok_iff.1 hm⟩

/-- Only the known version is compiled. -/
theorem Compiler.standard_compile_eq (doc : Yaml.Document) :
    standard.compile doc =
      match versionOf doc with
      | .error e => .error (.decode e)
      | .ok none => .error .noVersion
      | .ok (some version) =>
        if version = VersionEntry.v1.version then VersionEntry.v1.compile doc
        else .error (.unknownVersion version) := by
  have hs : standard.registry.isEmpty = false := rfl
  simp only [compile, hs, get?_standard, Bool.false_eq_true, if_false]
  rcases versionOf doc with e | _ | version
  · rfl
  · rfl
  · by_cases hv : version = VersionEntry.v1.version
    · simp only [if_pos hv]
    · simp only [if_neg hv]

/-- A descriptor of the known version is compiled by itself: the document adds nothing. -/
theorem compile_of_descriptor {bytes : ByteArray} {d : Descriptor}
    (hv : Compiler.versionOf (.ofBytes bytes) = .ok (some VersionEntry.v1.version))
    (hd : Descriptor.decoder.run (.ofBytes bytes) = .ok d) :
    compile bytes = (Module.ofDescriptor d).mapError .generate := by
  rw [compile, Compiler.standard_compile_eq, hv]
  simp only [if_true, VersionEntry.v1, hd]

/-- What can be computed from a document as a descriptor shows that it is one. -/
theorem exists_descriptor_of_eval (bytes : ByteArray) {f : Descriptor → β} {v : Option String}
    {b : β} (h : ((Compiler.versionOf (.ofBytes bytes)).toOption.bind fun v =>
      (Descriptor.decoder.run (.ofBytes bytes)).toOption.map fun d => (v, f d)) = some (v, b)) :
    Compiler.versionOf (.ofBytes bytes) = .ok v ∧
      ∃ d, Descriptor.decoder.run (.ofBytes bytes) = .ok d ∧ f d = b := by
  obtain ⟨w, hw, h⟩ := Option.bind_eq_some_iff.1 h
  obtain ⟨d, hd, h⟩ := Option.map_eq_some_iff.1 h
  cases h
  exact ⟨eq_ok_of_toOption hw, d, eq_ok_of_toOption hd, rfl⟩

end ModuleCompiler
