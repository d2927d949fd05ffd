import ModuleCompiler.Proofs.Tree.Finite
import ModuleCompiler.Proofs.Tree.Module

/-!
Writing a module loses nothing. Its tree tells it from every other module, and so does what JSON
keeps of the tree as long as the numbers in its configs are finite.
-/

namespace ModuleCompiler

def ConfigScalar.IsFinite : ConfigScalar → Prop
  | .float x => FiniteFloat x
  | _ => True

namespace Module

structure ConfigEntry.HasFiniteFloats (c : ConfigEntry) : Prop where
  default : ∀ v, c.default = some v → ∀ s ∈ v.scalars, s.IsFinite
  options : ∀ s ∈ c.options, s.IsFinite
  typeOptions : ∀ k s, c.typeOptions.get? k = some s → s.IsFinite

def HasFiniteFloats (m : Module) : Prop :=
  ∀ k c, m.configs.get? k = some c → c.HasFiniteFloats

section Services

@[simp] theorem inJson_portNumber (n : UInt16) : (portNumber n).InJson := rfl

@[simp] theorem inJson_durationTree (d : Duration) : (durationTree d).InJson := rfl

@[simp] theorem RunConfig.inJson (r : RunConfig) : r.toTree.InJson :=
  inJson_fieldsOf (by simp)

@[simp] theorem BindMount.inJson (m : BindMount) : m.toTree.InJson :=
  inJson_fieldsOf (by simp)

@[simp] theorem TmpfsMount.inJson (m : TmpfsMount) : m.toTree.InJson :=
  inJson_fieldsOf (by simp)

@[simp] theorem ProxyConf.inJson (p : ProxyConf) : p.toTree.InJson :=
  inJson_fieldsOf (by simp)

@[simp] theorem StringSub.inJson (s : StringSub) : s.toTree.InJson :=
  inJson_fieldsOf (by simp)

@[simp] theorem HttpEndpoint.inJson (e : HttpEndpoint) : e.toTree.InJson :=
  inJson_fieldsOf (by simp)

@[simp] theorem Port.inJson (p : Port) : p.toTree.InJson :=
  inJson_fieldsOf (by simp)

@[simp] theorem ServiceReference.inJson (r : ServiceReference) : r.toTree.InJson :=
  inJson_fieldsOf (by simp)

@[simp] theorem DependencyReference.inJson (r : DependencyReference) : r.toTree.InJson :=
  inJson_fieldsOf (by simp)

@[simp] theorem HostResourceReference.inJson (r : HostResourceReference) : r.toTree.InJson :=
  inJson_fieldsOf (by simp)

@[simp] theorem SecretReference.inJson (r : SecretReference) : r.toTree.InJson :=
  inJson_fieldsOf (by simp)

@[simp] theorem Service.inJson (s : Service) : s.toTree.InJson :=
  inJson_fieldsOf (by simp)

@[simp] theorem AuxService.inJson (s : AuxService) : s.toTree.InJson :=
  inJson_fieldsOf (by simp)

end Services

section Entries

@[simp] theorem HostResource.inJson (r : HostResource) : r.toTree.InJson :=
  inJson_fieldsOf (by simp)

@[simp] theorem Secret.inJson (s : Secret) : s.toTree.InJson :=
  inJson_fieldsOf (by simp)

theorem inJson_scalarTree {v : ConfigScalar} (h : v.IsFinite) : (scalarTree v).InJson := by
  cases v with
  | float x => exact Tree.inJson_float.2 h
  | _ => rfl

theorem ConfigValue.inJson {v : ConfigValue} (h : ∀ s ∈ v.scalars, s.IsFinite) :
    v.toTree.InJson := by
  cases v with
  | scalar v => exact inJson_scalarTree (h v (List.mem_singleton.2 rfl))
  | list vs =>
    refine Tree.inJson_list fun t ht => ?_
    obtain ⟨v, hv, rfl⟩ := List.mem_map.1 ht
    exact inJson_scalarTree (h v hv)

theorem ConfigEntry.inJson {c : ConfigEntry} (h : c.HasFiniteFloats) : c.toTree.InJson := by
  have hdefault : ∀ v ∈ c.default, v.toTree.InJson := fun v hv =>
    ConfigValue.inJson (h.default v hv)
  have hoptions : ∀ s ∈ c.options, (scalarTree s).InJson := fun s hs =>
    inJson_scalarTree (h.options s hs)
  have htypes : ∀ k s, c.typeOptions.get? k = some s → (scalarTree s).InJson := fun k s hs =>
    inJson_scalarTree (h.typeOptions k s hs)
  refine inJson_fieldsOf ?_
  simpa [partInJson_listed hoptions, partInJson_tabled htypes] using hdefault

@[simp] theorem Input.inJson (i : Input) : i.toTree.InJson :=
  inJson_fieldsOf (by simp)

@[simp] theorem Inputs.inJson (i : Inputs) : i.toTree.InJson :=
  inJson_fieldsOf (by simp)

theorem inJson_toTree {m : Module} (h : m.HasFiniteFloats) : m.toTree.InJson := by
  have hconfigs : ∀ k c, m.configs.get? k = some c → c.toTree.InJson := fun k c hc =>
    ConfigEntry.inJson (h k c hc)
  refine inJson_fieldsOf ?_
  simp [partInJson_tabled hconfigs, partInJson_ite]

end Entries

/-- Modules with the same tree are the same module, and the tree can be told from what JSON keeps
of it if all numbers of their configs are finite. -/
theorem toTree_faithful (m n : Module) :
    (m.toTree = n.toTree → m = n) ∧
      (m.HasFiniteFloats → n.HasFiniteFloats → m.toTree.inJson = n.toTree.inJson → m = n) := by
  refine ⟨fun h => toTree_injective h, fun hm hn h => toTree_injective ?_⟩
  calc
    m.toTree = m.toTree.inJson := (inJson_toTree hm).symm
    _ = n.toTree.inJson := h
    _ = n.toTree := inJson_toTree hn

/-- A module with one config, and its tags in the order in which they are put in. -/
def tagged (tags : List String) : Module :=
  { id := "shop"
    tags := SortedSet.ofList tags
    configs := SortedMap.empty.insert "rate"
      { dataType := .float, default := some (.scalar (.float 1.5)) } }

theorem hasFiniteFloats_tagged (tags : List String) : (tagged tags).HasFiniteFloats := by
  intro k c hc
  simp only [tagged, SortedMap.get?_insert, SortedMap.get?_empty] at hc
  split at hc
  · cases hc
    refine ⟨?_, by simp, fun _ _ hs => nomatch hs⟩
    intro v hv s hs
    cases hv
    cases List.mem_singleton.1 hs
    have hfinite : FiniteFloat 1.5 := by
      unfold FiniteFloat
      decide +kernel
    exact hfinite
  · cases hc

theorem toTree_faithful_tagged :
    (tagged ["web", "data"]).HasFiniteFloats ∧ (tagged ["data", "web"]).HasFiniteFloats ∧
      (tagged ["web", "data"]).toTree.inJson = (tagged ["data", "web"]).toTree.inJson ∧
      tagged ["web", "data"] = tagged ["data", "web"] := by
  have htree : (tagged ["web", "data"]).toTree = (tagged ["data", "web"]).toTree := rfl
  have hfirst := hasFiniteFloats_tagged ["web", "data"]
  have hsecond := hasFiniteFloats_tagged ["data", "web"]
  exact ⟨hfirst, hsecond, congrArg Tree.inJson htree,
    (toTree_faithful _ _).2 hfirst hsecond (congrArg Tree.inJson htree)⟩

end Module

end ModuleCompiler
