import ModuleCompiler.Module.Resolution

/-!
Services and helper services as bearers of bindings. One step of binding on a table of bearers has
three outcomes, told apart by what is bound under the key beforehand.
-/

namespace ModuleCompiler.Module

/-- Things that hold bindings by family and key beside what is their own. -/
class Bearer (σ : Type) (β : outParam Type) where
  family : β → Family
  binding? : σ → Family → String → Option β
  put : σ → String → β → σ
  bare : σ → σ
  binding?_put (s : σ) (key : String) (b : β) (f : Family) (k : String) :
    binding? (put s key b) f k = if f = family b ∧ k = key then some b else binding? s f k
  bare_put (s : σ) (key : String) (b : β) : bare (put s key b) = bare s
  binding?_bare (s : σ) (f : Family) (k : String) : binding? (bare s) f k = none
  ext_bare {s s' : σ} : bare s = bare s' → (∀ f k, binding? s f k = binding? s' f k) → s = s'

namespace Service

def bare (s : Service) : Service :=
  { s with
    serviceReferences := ∅
    volumes := ∅
    dependencies := ∅
    hostResources := ∅
    secretMounts := ∅
    secretVariables := ∅
    configs := ∅ }

theorem binding?_put (s : Service) (key : String) (b : Binding) (f : Family) (k : String) :
    (s.put key b).binding? f k =
      if f = b.family ∧ k = key then some b else s.binding? f k := by
  by_cases hk : k = key <;> rcases b with (_ | _ | _ | _) | _ | _ | _ <;> cases f <;>
    simp [put, binding?, Binding.family, SharedBinding.family, SortedMap.get?_insert, hk]

theorem bare_put (s : Service) (key : String) (b : Binding) : (s.put key b).bare = s.bare := by
  rcases b with (_ | _ | _ | _) | _ | _ | _ <;> rfl

theorem binding?_bare (s : Service) (f : Family) (k : String) : s.bare.binding? f k = none := by
  cases f <;> rfl

theorem ext_bare {s s' : Service} (hb : s.bare = s'.bare)
    (h : ∀ f k, s.binding? f k = s'.binding? f k) : s = s' := by
  have hr := SortedMap.ext_map_get? (fun _ _ e => by simpa using e) (h .serviceReference)
  have hv := SortedMap.ext_map_get? (fun _ _ e => by simpa using e) (h .volume)
  have hd := SortedMap.ext_map_get? (fun _ _ e => by simpa using e) (h .dependency)
  have hh := SortedMap.ext_map_get? (fun _ _ e => by simpa using e) (h .hostResource)
  have hm := SortedMap.ext_map_get? (fun _ _ e => by simpa using e) (h .secretMount)
  have hs := SortedMap.ext_map_get? (fun _ _ e => by simpa using e) (h .secretVariable)
  have hc := SortedMap.ext_map_get? (fun _ _ e => by simpa using e) (h .config)
  cases s
  cases s'
  simp_all [bare]

end Service

instance : Bearer Service Binding where
  family := Binding.family
  binding? := Service.binding?
  put := Service.put
  bare := Service.bare
  binding?_put := Service.binding?_put
  bare_put := Service.bare_put
  binding?_bare := Service.binding?_bare
  ext_bare := Service.ext_bare

namespace AuxService

def bare (s : AuxService) : AuxService :=
  { s with serviceReferences := ∅, volumes := ∅, dependencies := ∅, configs := ∅ }

theorem binding?_put (s : AuxService) (key : String) (b : SharedBinding) (f : Family)
    (k : String) :
    (s.put key b).binding? f k =
      if f = b.family ∧ k = key then some b else s.binding? f k := by
  by_cases hk : k = key <;> cases b <;> cases f <;>
    simp [put, binding?, SharedBinding.family, SortedMap.get?_insert, hk]

theorem bare_put (s : AuxService) (key : String) (b : SharedBinding) :
    (s.put key b).bare = s.bare := by
  cases b <;> rfl

theorem binding?_bare (s : AuxService) (f : Family) (k : String) :
    s.bare.binding? f k = none := by
  cases f <;> rfl

theorem ext_bare {s s' : AuxService} (hb : s.bare = s'.bare)
    (h : ∀ f k, s.binding? f k = s'.binding? f k) : s = s' := by
  have hr := SortedMap.ext_map_get? (fun _ _ e => by simpa using e) (h .serviceReference)
  have hv := SortedMap.ext_map_get? (fun _ _ e => by simpa using e) (h .volume)
  have hd := SortedMap.ext_map_get? (fun _ _ e => by simpa using e) (h .dependency)
  have hc := SortedMap.ext_map_get? (fun _ _ e => by simpa using e) (h .config)
  cases s
  cases s'
  simp_all [bare]

end AuxService

instance : Bearer AuxService SharedBinding where
  family := SharedBinding.family
  binding? := AuxService.binding?
  put := AuxService.put
  bare := AuxService.bare
  binding?_put := AuxService.binding?_put
  bare_put := AuxService.bare_put
  binding?_bare := AuxService.binding?_bare
  ext_bare := AuxService.ext_bare

section

variable {σ β : Type} [Bearer σ β]

def bindingIn? (m : SortedMap σ) (id : String) (f : Family) (k : String) : Option β :=
  (m.get? id).bind (Bearer.binding? · f k)

theorem contains_of_bindingIn? {m : SortedMap σ} {id : String} {f : Family} {k : String} {b : β}
    (h : bindingIn? m id f k = some b) : m.contains id = true := by
  obtain ⟨s, hs, _⟩ := Option.bind_eq_some_iff.1 h
  exact SortedMap.contains_iff.2 ⟨s, hs⟩

theorem ext_bindingIn? {m n : SortedMap σ}
    (hb : (m.map fun _ => Bearer.bare) = n.map fun _ => Bearer.bare)
    (h : ∀ id f k, bindingIn? m id f k = bindingIn? n id f k) : m = n := by
  apply SortedMap.ext_get?
  intro id
  have hg := congrArg (SortedMap.get? · id) hb
  have hl := h id
  simp only [SortedMap.get?_map, bindingIn?] at hg hl
  cases hm : m.get? id with
  | none =>
    cases hn : n.get? id with
    | none => rfl
    | some s' => simp [hm, hn] at hg
  | some s =>
    cases hn : n.get? id with
    | none => simp [hm, hn] at hg
    | some s' =>
      simp only [hm, hn, Option.map_some, Option.some.injEq, Option.bind_some] at hg hl
      rw [Bearer.ext_bare hg hl]

/-- A table after one more binding: all else is as it was. -/
structure Extends (m : SortedMap σ) (id key : String) (b : β) (m' : SortedMap σ) : Prop where
  bare : (m'.map fun _ => Bearer.bare) = m.map fun _ => Bearer.bare
  binding? : ∀ id' f k, bindingIn? m' id' f k =
    if id' = id ∧ f = Bearer.family σ b ∧ k = key then some b else bindingIn? m id' f k

theorem Extends.of_bound {m : SortedMap σ} {id key : String} {b : β}
    (h : bindingIn? m id (Bearer.family σ b) key = some b) : Extends m id key b m := by
  refine ⟨rfl, fun id' f k => ?_⟩
  split
  · rename_i he
    obtain ⟨rfl, rfl, rfl⟩ := he
    exact h
  · rfl

theorem Extends.insert {m : SortedMap σ} {id : String} {s : σ} (hs : m.get? id = some s)
    (key : String) (b : β) : Extends m id key b (m.insert id (Bearer.put s key b)) := by
  constructor
  · apply SortedMap.ext_get?
    intro id'
    simp only [SortedMap.get?_map, SortedMap.get?_insert]
    by_cases hi : id' = id
    · subst hi
      simp [hs, Bearer.bare_put]
    · simp [hi]
  · intro id' f k
    simp only [bindingIn?, SortedMap.get?_insert]
    by_cases hi : id' = id
    · subst hi
      simp [hs, Bearer.binding?_put]
    · simp [hi]

variable [DecidableEq β] {ε : Type}

/-- One step of binding on a table: the bearer is missing, or another thing is bound under the key,
or the binding is there afterwards. -/
theorem updateEntry_bindOn (m : SortedMap σ) (id key : String) (b : β) (missing : ε)
    (clash : β → ε) :
    let r := updateEntry m id missing fun s =>
      bindOn s (Bearer.binding? s (Bearer.family σ b) key) b (Bearer.put · key b) clash
    (m.contains id = false ∧ r = .error missing) ∨
    (∃ old, bindingIn? m id (Bearer.family σ b) key = some old ∧ old ≠ b ∧ r = .error (clash old)) ∨
    (m.contains id = true ∧ (∀ old, bindingIn? m id (Bearer.family σ b) key = some old → old = b) ∧
      ∃ m', r = .ok m' ∧ Extends m id key b m') := by
  intro r
  cases hm : m.get? id with
  | none => exact .inl ⟨by simp [SortedMap.contains, hm], by simp [r, updateEntry, hm]⟩
  | some s =>
    have hc : m.contains id = true := SortedMap.contains_iff.2 ⟨s, hm⟩
    have hl : bindingIn? m id (Bearer.family σ b) key =
        Bearer.binding? s (Bearer.family σ b) key := by
      simp [bindingIn?, hm]
    rw [hl]
    cases ho : Bearer.binding? s (Bearer.family σ b) key with
    | none =>
      refine .inr (.inr ⟨hc, by simp, m.insert id (Bearer.put s key b), ?_, .insert hm key b⟩)
      simp [r, updateEntry, hm, bindOn, ho]
    | some old =>
      by_cases he : old = b
      · subst he
        refine .inr (.inr ⟨hc, fun _ h => (Option.some.inj h).symm, m, ?_, .of_bound (hl.trans ho)⟩)
        simp [r, updateEntry, hm, bindOn, ho, SortedMap.insert_of_get? hm]
      · exact .inr (.inl ⟨old, rfl, he, by simp [r, updateEntry, hm, bindOn, ho, he]⟩)

end

end ModuleCompiler.Module
