import ModuleCompiler.Proofs.Binding.Resolution
import ModuleCompiler.Proofs.Compilation

/-!
Compiled modules are complete and closed: they have an entry for every entry of their descriptor and
for no other, and what is bound on a service comes from an entry of the module itself.
-/

namespace ModuleCompiler

namespace Module

/-- The entry that a binding comes from is there. References among services are not looked at. -/
def SharedBinding.LeadsInto (m : Module) : SharedBinding → Prop
  | serviceReference _ => True
  | volume name => name ∈ m.volumes.toList
  | dependency r => r.moduleId ∈ m.dependencies.keys
  | config name => name ∈ m.configs.keys

def Binding.LeadsInto (m : Module) : Binding → Prop
  | shared b => b.LeadsInto m
  | hostResource r => r.reference ∈ m.hostResources.keys
  | secretMount r => r.reference ∈ m.secrets.keys
  | secretVariable r => r.reference ∈ m.secrets.keys

structure IsClosed (m : Module) : Prop where
  services : ∀ id s, m.services.get? id = some s →
    ∀ family key b, s.binding? family key = some b → b.LeadsInto m
  auxServices : ∀ id s, m.auxServices.get? id = some s →
    ∀ family key b, s.binding? family key = some b → b.LeadsInto m

/-- The entries of a module are those of a descriptor, and the operator is asked about the entries
that want it. -/
structure IsComplete (m : Module) (d : Descriptor) : Prop where
  services : m.services.keys = d.services.keys
  auxServices : m.auxServices.keys = d.auxServices.keys
  volumes : m.volumes.toList = d.volumes.keys
  dependencies : m.dependencies.keys = d.dependencies.keys
  hostResources : m.hostResources.keys = d.hostResources.keys
  secrets : m.secrets.keys = d.secrets.keys
  configs : m.configs.keys = d.configs.keys
  groups : m.inputs.groups.keys = d.inputGroups.keys
  resourceInputs : ∀ k, k ∈ m.inputs.resources.keys ↔
    ∃ r, d.hostResources.get? k = some r ∧ r.userInput.isSome
  secretInputs : ∀ k, k ∈ m.inputs.secrets.keys ↔
    ∃ s, d.secrets.get? k = some s ∧ s.userInput.isSome
  configInputs : ∀ k, k ∈ m.inputs.configs.keys ↔
    ∃ c, d.configs.get? k = some c ∧ c.userInput.isSome

theorem isComplete_of_ofDescriptor {d : Descriptor} {m : Module}
    (h : Module.ofDescriptor d = .ok m) : m.IsComplete d := by
  obtain ⟨configs, t, t', hc, ht, hr, rfl⟩ := eq_assemble_of_ofDescriptor h
  have hkeys := (ServiceTables.run_eq_ok_iff.1 (resolve_eq_ok_iff.1 hr)).2.keys
  have hkeys' := ServiceTables.keys_ofDescriptor ht
  exact {
    services := hkeys.1.trans hkeys'.1
    auxServices := hkeys.2.trans hkeys'.2
    volumes := SortedMap.keys_map _ _
    dependencies := SortedMap.keys_map _ _
    hostResources := SortedMap.keys_map _ _
    secrets := SortedMap.keys_map _ _
    configs := SortedMap.keys_of_traverse hc
    groups := SortedMap.keys_map _ _
    resourceInputs := fun k => by simp [assemble, Inputs.ofDescriptor, SortedMap.mem_keys_filterMap]
    secretInputs := fun k => by simp [assemble, Inputs.ofDescriptor, SortedMap.mem_keys_filterMap]
    configInputs := fun k => by simp [assemble, Inputs.ofDescriptor, SortedMap.mem_keys_filterMap] }

theorem Shares.leadsInto {d : Descriptor} {m : Module} (hm : m.IsComplete d) {b : SharedBinding}
    {key : String} {services auxServices : List String}
    (h : Shares d b key services auxServices) : b.LeadsInto m := by
  cases h with
  | serviceReference => trivial
  | volume he => exact SortedMap.mem_keys_of_eq hm.volumes he
  | dependency hd => exact SortedMap.mem_keys_of_eq hm.dependencies hd
  | config he => exact SortedMap.mem_keys_of_eq hm.configs he

theorem Asks.leadsInto {d : Descriptor} {m : Module} (hm : m.IsComplete d) {s : Step}
    (h : Asks d s) : s.binding.LeadsInto m := by
  cases h with
  | service hs => exact hs.leadsInto hm
  | auxService hs => exact hs.leadsInto hm
  | hostResource he => exact SortedMap.mem_keys_of_eq hm.hostResources he
  | secretMount he => exact SortedMap.mem_keys_of_eq hm.secrets he
  | secretVariable he => exact SortedMap.mem_keys_of_eq hm.secrets he

theorem isClosed_of_ofDescriptor {d : Descriptor} {m : Module}
    (h : Module.ofDescriptor d = .ok m) : m.IsClosed := by
  have hm := isComplete_of_ofDescriptor h
  obtain ⟨configs, t, t', hc, ht, hr, rfl⟩ := eq_assemble_of_ofDescriptor h
  constructor
  · intro id s hs family key b hb
    exact ((service_binding?_of_resolve ht hr hs family key b).1 hb).2.leadsInto hm
  · intro id s hs family key b hb
    exact ((auxService_binding?_of_resolve ht hr hs family key b).1 hb).2.leadsInto hm

end Module

/-- The module of a document has exactly the entries of its descriptor, and nothing is bound on its
services that does not come from one of them. -/
theorem compile_closed {bytes : ByteArray} {m : Module} (h : compile bytes = .ok m) :
    ∃ d, Descriptor.decoder.run (.ofBytes bytes) = .ok d ∧ Module.ofDescriptor d = .ok m ∧
      m.IsComplete d ∧ m.IsClosed := by
  obtain ⟨d, hd, hm⟩ := descriptor_of_compile h
  exact ⟨d, hd, hm, Module.isComplete_of_ofDescriptor hm, Module.isClosed_of_ofDescriptor hm⟩

def databaseDocument : ByteArray :=
  ("modfileVersion: v1\nservices:\n  db:\n" ++
    "volumes:\n  data:\n  - mountPoint: /data\n    services: [db]\n").toUTF8

theorem compile_closed_database :
    ∃ m db, compile databaseDocument = .ok m ∧ m.services.get? "db" = some db ∧
      db.binding? .volume "/data" = some (.shared (.volume "data")) ∧
      "data" ∈ m.volumes.toList := by
  have hbound : ((compile databaseDocument).toOption.bind fun m =>
      (m.services.get? "db").bind (·.binding? .volume "/data")) =
        some (.shared (.volume "data")) := by
    decide +kernel
  obtain ⟨m, hc, hb⟩ := Option.bind_eq_some_iff.1 hbound
  obtain ⟨db, hs, hb⟩ := Option.bind_eq_some_iff.1 hb
  have hm : compile databaseDocument = .ok m := by
    cases hr : compile databaseDocument <;> simp_all [Except.toOption]
  obtain ⟨d, _, _, _, hclosed⟩ := compile_closed hm
  exact ⟨m, db, hm, hs, hb, hclosed.services "db" db hs _ _ _ hb⟩

end ModuleCompiler
