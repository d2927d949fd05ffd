import ModuleCompiler.Proofs.Field.DurationText
import ModuleCompiler.Proofs.Tree.Fields

/-!
Modules are told apart by their trees.
-/

namespace ModuleCompiler.Module

section Leaves

@[simp] theorem text_injective : Function.Injective Tree.text := fun _ _ => Tree.text.inj

@[simp] theorem toList_inj {s t : SortedSet} : s.toList = t.toList ↔ s = t := by
  constructor
  · intro h
    refine SortedMap.ext_get? fun k => Option.ext fun _ => ?_
    have hk : k ∈ s.keys ↔ k ∈ t.keys := by rw [show s.keys = t.keys from h]
    rw [SortedMap.mem_keys, SortedMap.mem_keys] at hk
    -- there is one element only that a set can hold
    exact ⟨fun hs => (hk.1 ⟨_, hs⟩).choose_spec, fun ht => (hk.2 ⟨_, ht⟩).choose_spec⟩
  · rintro rfl
    rfl

@[simp] theorem integer_inj {m n : Nat} : Tree.integer m = Tree.integer n ↔ m = n := by
  rw [Tree.integer.injEq, Int.natCast_inj]

@[simp] theorem portNumber_injective : Function.Injective portNumber := by
  intro m n h
  exact UInt16.toNat_inj.1 (integer_inj.1 h)

@[simp] theorem portNumber_inj {m n : UInt16} : portNumber m = portNumber n ↔ m = n :=
  portNumber_injective.eq_iff

@[simp] theorem durationTree_injective : Function.Injective durationTree := by
  intro d e h
  exact Duration.toText_injective (Tree.text.inj h)

@[simp] theorem durationTree_inj {d e : Duration} : durationTree d = durationTree e ↔ d = e :=
  durationTree_injective.eq_iff

@[simp] theorem scalarTree_injective : Function.Injective scalarTree := by
  intro v w h
  cases v <;> cases w <;> simp_all [scalarTree, Int64.toInt_inj]

@[simp] theorem dataTypeName_inj {k l : DataType} : k.name = l.name ↔ k = l := by
  cases k <;> cases l <;> decide

end Leaves

section Services

@[simp] theorem RunConfig.toTree_injective : Function.Injective RunConfig.toTree := by
  rintro ⟨⟩ ⟨⟩ h
  simpa [Int.natCast_inj, UInt32.toNat_inj] using fieldsOf_injective (by decide) h

@[simp] theorem BindMount.toTree_injective : Function.Injective BindMount.toTree := by
  rintro ⟨⟩ ⟨⟩ h
  simpa using fieldsOf_injective (by decide) h

@[simp] theorem TmpfsMount.toTree_injective : Function.Injective TmpfsMount.toTree := by
  rintro ⟨⟩ ⟨⟩ h
  simpa [Int.natCast_inj, UInt32.toNat_inj, UInt64.toNat_inj] using fieldsOf_injective (by decide) h

@[simp] theorem ProxyConf.toTree_injective : Function.Injective ProxyConf.toTree := by
  rintro ⟨⟩ ⟨⟩ h
  simpa using fieldsOf_injective (by decide) h

@[simp] theorem StringSub.toTree_injective : Function.Injective StringSub.toTree := by
  rintro ⟨⟩ ⟨⟩ h
  simpa using fieldsOf_injective (by decide) h

@[simp] theorem HttpEndpoint.toTree_injective : Function.Injective HttpEndpoint.toTree := by
  rintro ⟨⟩ ⟨⟩ h
  simpa using fieldsOf_injective (by decide) h

@[simp] theorem Port.toTree_injective : Function.Injective Port.toTree := by
  rintro ⟨⟩ ⟨⟩ h
  simpa using fieldsOf_injective (by decide) h

@[simp] theorem ServiceReference.toTree_injective :
    Function.Injective ServiceReference.toTree := by
  rintro ⟨⟩ ⟨⟩ h
  simpa using fieldsOf_injective (by decide) h

@[simp] theorem DependencyReference.toTree_injective :
    Function.Injective DependencyReference.toTree := by
  rintro ⟨⟩ ⟨⟩ h
  simpa using fieldsOf_injective (by decide) h

@[simp] theorem HostResourceReference.toTree_injective :
    Function.Injective HostResourceReference.toTree := by
  rintro ⟨⟩ ⟨⟩ h
  simpa using fieldsOf_injective (by decide) h

@[simp] theorem SecretReference.toTree_injective : Function.Injective SecretReference.toTree := by
  rintro ⟨⟩ ⟨⟩ h
  simpa using fieldsOf_injective (by decide) h

@[simp] theorem Service.toTree_injective : Function.Injective Service.toTree := by
  rintro ⟨⟩ ⟨⟩ h
  simpa [RunConfig.toTree_injective.eq_iff] using fieldsOf_injective (by decide) h

@[simp] theorem AuxService.toTree_injective : Function.Injective AuxService.toTree := by
  rintro ⟨⟩ ⟨⟩ h
  simpa [RunConfig.toTree_injective.eq_iff] using fieldsOf_injective (by decide) h

end Services

section Entries

@[simp] theorem HostResource.toTree_injective : Function.Injective HostResource.toTree := by
  rintro ⟨⟩ ⟨⟩ h
  simpa using fieldsOf_injective (by decide) h

@[simp] theorem Secret.toTree_injective : Function.Injective Secret.toTree := by
  rintro ⟨⟩ ⟨⟩ h
  simpa using fieldsOf_injective (by decide) h

@[simp] theorem ConfigValue.toTree_injective : Function.Injective ConfigValue.toTree := by
  intro v w h
  cases v with
  | scalar v =>
    cases w with
    | scalar w => rw [scalarTree_injective h]
    | list ws => cases v <;> cases h
  | list vs =>
    cases w with
    | scalar w => cases w <;> cases h
    | list ws => rw [List.map_injective_iff.2 scalarTree_injective (Tree.list.inj h)]

@[simp] theorem ConfigEntry.toTree_injective : Function.Injective ConfigEntry.toTree := by
  rintro ⟨⟩ ⟨⟩ h
  simpa using fieldsOf_injective (by decide) h

@[simp] theorem Input.toTree_injective : Function.Injective Input.toTree := by
  rintro ⟨⟩ ⟨⟩ h
  simpa using fieldsOf_injective (by decide) h

@[simp] theorem Inputs.toTree_injective : Function.Injective Inputs.toTree := by
  rintro ⟨⟩ ⟨⟩ h
  simpa using fieldsOf_injective (by decide) h

theorem Inputs.eq_of_isEmpty {i j : Inputs} (hi : i.isEmpty = true) (hj : j.isEmpty = true) :
    i = j := by
  obtain ⟨r, s, c, g⟩ := i
  obtain ⟨r', s', c', g'⟩ := j
  simp only [isEmpty, Bool.and_eq_true] at hi hj
  obtain ⟨⟨⟨hr, hs⟩, hc⟩, hg⟩ := hi
  obtain ⟨⟨⟨hr', hs'⟩, hc'⟩, hg'⟩ := hj
  rw [map_eq_of_isEmpty hr hr', map_eq_of_isEmpty hs hs', map_eq_of_isEmpty hc hc',
    map_eq_of_isEmpty hg hg']

@[simp] theorem inputs_inj {i j : Inputs} :
    (if i.isEmpty = true then [] else always "inputs" i.toTree) =
      (if j.isEmpty = true then [] else always "inputs" j.toTree) ↔ i = j :=
  unless_inj Inputs.isEmpty Inputs.eq_of_isEmpty fun h => Inputs.toTree_injective h

end Entries

/-- No two modules have one tree. -/
theorem toTree_injective : Function.Injective toTree := by
  rintro ⟨⟩ ⟨⟩ h
  simpa using fieldsOf_injective (by decide) h

end ModuleCompiler.Module
