import ModuleCompiler.Proofs.Binding.Slot

/-!
What a descriptor asks to be bound, told entry by entry and target by target without an order. The
list of steps of a descriptor holds exactly that.
-/

namespace ModuleCompiler

def Descriptor.declares (d : Descriptor) (kind : ServiceKind) (id : String) : Bool :=
  match kind with
  | .service => d.services.contains id
  | .auxService => d.auxServices.contains id

namespace Module

/-- A target of an entry wants something bound under a key of the services and helper services that
it lists. -/
inductive Shares (d : Descriptor) : SharedBinding → String → List String → List String → Prop
  | serviceReference {reference : String} {targets : List Descriptor.DependencyTarget}
      {t : Descriptor.DependencyTarget} :
      d.serviceReferences.get? reference = some targets → t ∈ targets →
      Shares d (.serviceReference ⟨reference, t.template⟩) t.refVar t.services t.auxServices
  | volume {name : String} {targets : List Descriptor.VolumeTarget} {t : Descriptor.VolumeTarget} :
      d.volumes.get? name = some targets → t ∈ targets →
      Shares d (.volume name) t.mountPoint t.services t.auxServices
  | dependency {moduleId service : String} {dep : Descriptor.ModuleDependency}
      {targets : List Descriptor.DependencyTarget} {t : Descriptor.DependencyTarget} :
      d.dependencies.get? moduleId = some dep → dep.requiredServices.get? service = some targets →
      t ∈ targets →
      Shares d (.dependency ⟨moduleId, service, t.template⟩) t.refVar t.services t.auxServices
  | config {name : String} {c : Descriptor.ConfigValue} {t : Descriptor.ConfigTarget} :
      d.configs.get? name = some c → t ∈ c.targets →
      Shares d (.config name) t.refVar t.services t.auxServices

/-- The bindings that a descriptor asks for. Targets of host resources and secrets list services
only, and a target of a secret counts as far as it has a mount point or a variable. -/
inductive Asks (d : Descriptor) : Step → Prop
  | service {b : SharedBinding} {id key : String} {services auxServices : List String} :
      Shares d b key services auxServices → id ∈ services → Asks d (.service id key (.shared b))
  | auxService {b : SharedBinding} {id key : String} {services auxServices : List String} :
      Shares d b key services auxServices → id ∈ auxServices → Asks d (.auxService id key b)
  | hostResource {name id : String} {r : Descriptor.HostResource}
      {t : Descriptor.HostResourceTarget} :
      d.hostResources.get? name = some r → t ∈ r.targets → id ∈ t.services →
      Asks d (.service id t.mountPoint (.hostResource ⟨name, t.readOnly⟩))
  | secretMount {name id mountPoint : String} {s : Descriptor.Secret}
      {t : Descriptor.SecretTarget} :
      d.secrets.get? name = some s → t ∈ s.targets → t.mountPoint = some mountPoint →
      id ∈ t.services → Asks d (.service id mountPoint (.secretMount ⟨name, t.item⟩))
  | secretVariable {name id refVar : String} {s : Descriptor.Secret} {t : Descriptor.SecretTarget} :
      d.secrets.get? name = some s → t ∈ s.targets → t.refVar = some refVar →
      id ∈ t.services → Asks d (.service id refVar (.secretVariable ⟨name, t.item⟩))

namespace Step

def OnTargets (services auxServices : List String) (key : String) (b : SharedBinding)
    (s : Step) : Prop :=
  (∃ id ∈ services, .service id key (.shared b) = s) ∨
    ∃ id ∈ auxServices, .auxService id key b = s

theorem OnTargets.asks {d : Descriptor} {services auxServices : List String} {key : String}
    {b : SharedBinding} {s : Step} (ho : OnTargets services auxServices key b s)
    (hs : Shares d b key services auxServices) : Asks d s := by
  rcases ho with ⟨id, hid, rfl⟩ | ⟨id, hid, rfl⟩
  · exact .service hs hid
  · exact .auxService hs hid

theorem mem_serviceReferences {refs : SortedMap (List Descriptor.DependencyTarget)} {s : Step} :
    s ∈ bothKinds (ofServiceReferences refs) ↔
      ∃ reference targets, refs.get? reference = some targets ∧ ∃ t ∈ targets,
        OnTargets t.services t.auxServices t.refVar
          (.serviceReference ⟨reference, t.template⟩) s := by
  simp only [bothKinds, ofServiceReferences, onKind, OnTargets, List.mem_append, List.mem_flatMap,
    List.mem_map, Prod.exists, SortedMap.get?_eq_some_iff, ← exists_or, ← and_or_left]

theorem mem_volumes {volumes : SortedMap (List Descriptor.VolumeTarget)} {s : Step} :
    s ∈ bothKinds (ofVolumes volumes) ↔
      ∃ name targets, volumes.get? name = some targets ∧ ∃ t ∈ targets,
        OnTargets t.services t.auxServices t.mountPoint (.volume name) s := by
  simp only [bothKinds, ofVolumes, onKind, OnTargets, List.mem_append, List.mem_flatMap,
    List.mem_map, Prod.exists, SortedMap.get?_eq_some_iff, ← exists_or, ← and_or_left]

theorem mem_dependencies {deps : SortedMap Descriptor.ModuleDependency} {s : Step} :
    s ∈ bothKinds (ofDependencies deps) ↔
      ∃ moduleId dep, deps.get? moduleId = some dep ∧
        ∃ service targets, dep.requiredServices.get? service = some targets ∧ ∃ t ∈ targets,
          OnTargets t.services t.auxServices t.refVar
            (.dependency ⟨moduleId, service, t.template⟩) s := by
  simp only [bothKinds, ofDependencies, onKind, OnTargets, List.mem_append, List.mem_flatMap,
    List.mem_map, Prod.exists, SortedMap.get?_eq_some_iff, ← exists_or, ← and_or_left]

theorem mem_configs {configs : SortedMap Descriptor.ConfigValue} {s : Step} :
    s ∈ bothKinds (ofConfigs configs) ↔
      ∃ name c, configs.get? name = some c ∧ ∃ t ∈ c.targets,
        OnTargets t.services t.auxServices t.refVar (.config name) s := by
  simp only [bothKinds, ofConfigs, onKind, OnTargets, List.mem_append, List.mem_flatMap,
    List.mem_map, Prod.exists, SortedMap.get?_eq_some_iff, ← exists_or, ← and_or_left]

theorem mem_hostResources {resources : SortedMap Descriptor.HostResource} {s : Step} :
    s ∈ ofHostResources resources ↔
      ∃ name r, resources.get? name = some r ∧ ∃ t ∈ r.targets, ∃ id ∈ t.services,
        .service id t.mountPoint (.hostResource ⟨name, t.readOnly⟩) = s := by
  simp only [ofHostResources, onServices, List.mem_flatMap, List.mem_map, Prod.exists,
    SortedMap.get?_eq_some_iff]

theorem mem_bindAt {t : Descriptor.SecretTarget} {key : Option String} {b : Binding} {s : Step} :
    s ∈ ofSecrets.bindAt t key b ↔ ∃ k, key = some k ∧ ∃ id ∈ t.services, .service id k b = s := by
  cases key <;> simp [ofSecrets.bindAt, onServices]

theorem mem_secrets {secrets : SortedMap Descriptor.Secret} {s : Step} :
    s ∈ ofSecrets secrets ↔
      ∃ name secret, secrets.get? name = some secret ∧ ∃ t ∈ secret.targets, ∃ key,
        ∃ id ∈ t.services,
          t.mountPoint = some key ∧ .service id key (.secretMount ⟨name, t.item⟩) = s ∨
          t.refVar = some key ∧ .service id key (.secretVariable ⟨name, t.item⟩) = s := by
  simp only [ofSecrets, List.mem_flatMap, List.mem_append, mem_bindAt, Prod.exists,
    SortedMap.get?_eq_some_iff]
  constructor
  · rintro ⟨name, secret, hs, ⟨t, ht, key, hk, id, hid, he⟩ | ⟨t, ht, key, hk, id, hid, he⟩⟩
    · exact ⟨name, secret, hs, t, ht, key, id, hid, .inl ⟨hk, he⟩⟩
    · exact ⟨name, secret, hs, t, ht, key, id, hid, .inr ⟨hk, he⟩⟩
  · rintro ⟨name, secret, hs, t, ht, key, id, hid, ⟨hk, he⟩ | ⟨hk, he⟩⟩
    · exact ⟨name, secret, hs, .inl ⟨t, ht, key, hk, id, hid, he⟩⟩
    · exact ⟨name, secret, hs, .inr ⟨t, ht, key, hk, id, hid, he⟩⟩

theorem OnTargets.mem_ofDescriptor {d : Descriptor} {services auxServices : List String}
    {key : String} {b : SharedBinding} {s : Step} (ho : OnTargets services auxServices key b s)
    (hs : Shares d b key services auxServices) : s ∈ ofDescriptor d := by
  simp only [ofDescriptor, List.mem_append]
  cases hs with
  | serviceReference he ht =>
    exact .inl (.inl (.inl (.inl (.inl (mem_serviceReferences.2 ⟨_, _, he, _, ht, ho⟩)))))
  | volume he ht =>
    exact .inl (.inl (.inl (.inl (.inr (mem_volumes.2 ⟨_, _, he, _, ht, ho⟩)))))
  | dependency hd he ht =>
    exact .inl (.inl (.inl (.inr (mem_dependencies.2 ⟨_, _, hd, _, _, he, _, ht, ho⟩))))
  | config he ht => exact .inr (mem_configs.2 ⟨_, _, he, _, ht, ho⟩)

theorem mem_ofDescriptor {d : Descriptor} {s : Step} : s ∈ ofDescriptor d ↔ Asks d s := by
  constructor
  · simp only [ofDescriptor, List.mem_append, mem_serviceReferences, mem_volumes, mem_dependencies,
      mem_hostResources, mem_secrets, mem_configs]
    rintro (((((⟨_, _, he, _, ht, ho⟩ | ⟨_, _, he, _, ht, ho⟩) | ⟨_, _, hd, _, _, he, _, ht, ho⟩) |
      ⟨_, _, he, _, ht, _, hid, rfl⟩) | ⟨_, _, he, _, ht, _, _, hid, ⟨hk, rfl⟩ | ⟨hk, rfl⟩⟩) |
      ⟨_, _, he, _, ht, ho⟩)
    · exact ho.asks (.serviceReference he ht)
    · exact ho.asks (.volume he ht)
    · exact ho.asks (.dependency hd he ht)
    · exact .hostResource he ht hid
    · exact .secretMount he ht hk hid
    · exact .secretVariable he ht hk hid
    · exact ho.asks (.config he ht)
  · intro h
    cases h with
    | service hs hid => exact OnTargets.mem_ofDescriptor (.inl ⟨_, hid, rfl⟩) hs
    | auxService hs hid => exact OnTargets.mem_ofDescriptor (.inr ⟨_, hid, rfl⟩) hs
    | hostResource he ht hid =>
      have hm := mem_hostResources.2 ⟨_, _, he, _, ht, _, hid, rfl⟩
      simp only [ofDescriptor, List.mem_append, hm, true_or, or_true]
    | secretMount he ht hk hid =>
      have hm := mem_secrets.2 ⟨_, _, he, _, ht, _, _, hid, .inl ⟨hk, rfl⟩⟩
      simp only [ofDescriptor, List.mem_append, hm, true_or, or_true]
    | secretVariable he ht hk hid =>
      have hm := mem_secrets.2 ⟨_, _, he, _, ht, _, _, hid, .inr ⟨hk, rfl⟩⟩
      simp only [ofDescriptor, List.mem_append, hm, true_or, or_true]

end Step

end Module

end ModuleCompiler
