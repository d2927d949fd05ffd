import ModuleCompiler.Module.Generate
import ModuleCompiler.Proofs.Outcome
import ModuleCompiler.Proofs.Binding.Request
import ModuleCompiler.Proofs.Binding.Run

/-!
References of a descriptor on its own services. They resolve if and only if all their targets are
declared and no slot is asked for two things, in whatever order they are bound; and then a slot
holds exactly what it is asked for.
-/

namespace ModuleCompiler.Module

theorem Service.bare_ofDescriptor {id : String} {s : Descriptor.Service} {srv : Service}
    (h : Service.ofDescriptor id s = .ok srv) : srv.bare = srv := by
  simp only [Service.ofDescriptor, bind_eq_ok_iff, pure_eq_ok_iff] at h
  obtain ⟨_, _, _, _, _, _, _, _, rfl⟩ := h
  rfl

theorem AuxService.bare_ofDescriptor {id : String} {s : Descriptor.AuxService} {srv : AuxService}
    (h : AuxService.ofDescriptor id s = .ok srv) : srv.bare = srv := by
  simp only [AuxService.ofDescriptor, bind_eq_ok_iff, pure_eq_ok_iff] at h
  obtain ⟨_, _, _, _, rfl⟩ := h
  rfl

theorem map_bare_of_traverse [Bearer σ β] {m : SortedMap α} {n : SortedMap σ}
    {f : String → α → Except ε σ} (h : m.traverse f = .ok n)
    (hf : ∀ k a s, f k a = .ok s → Bearer.bare s = s) : (n.map fun _ => Bearer.bare) = n := by
  apply SortedMap.ext_get?
  intro k
  rw [SortedMap.get?_map]
  cases hn : n.get? k with
  | none => rfl
  | some s =>
    obtain ⟨a, _, ha⟩ := SortedMap.get?_of_traverse h hn
    exact congrArg some (hf k a s ha)

namespace ServiceTables

theorem of_ofDescriptor {d : Descriptor} {t : ServiceTables}
    (h : ServiceTables.ofDescriptor d = .ok t) :
    Service.ofDescriptors d.services = .ok t.services ∧
      AuxService.ofDescriptors d.auxServices = .ok t.auxServices := by
  simp only [ServiceTables.ofDescriptor, bind_eq_ok_iff, pure_eq_ok_iff] at h
  obtain ⟨_, hs, _, ha, rfl⟩ := h
  exact ⟨hs, ha⟩

theorem bare_ofDescriptor {d : Descriptor} {t : ServiceTables}
    (h : ServiceTables.ofDescriptor d = .ok t) : t.bare = t := by
  obtain ⟨hs, ha⟩ := of_ofDescriptor h
  have hs' := map_bare_of_traverse hs fun _ _ _ => Service.bare_ofDescriptor
  have ha' := map_bare_of_traverse ha fun _ _ _ => AuxService.bare_ofDescriptor
  simp only [bare, hs', ha']

theorem keys_ofDescriptor {d : Descriptor} {t : ServiceTables}
    (h : ServiceTables.ofDescriptor d = .ok t) :
    t.services.keys = d.services.keys ∧ t.auxServices.keys = d.auxServices.keys := by
  obtain ⟨hs, ha⟩ := of_ofDescriptor h
  exact ⟨SortedMap.keys_of_traverse hs, SortedMap.keys_of_traverse ha⟩

theorem declares_ofDescriptor {d : Descriptor} {t : ServiceTables}
    (h : ServiceTables.ofDescriptor d = .ok t) (kind : ServiceKind) (id : String) :
    t.declares kind id = d.declares kind id := by
  obtain ⟨hs, ha⟩ := keys_ofDescriptor h
  rw [Bool.eq_iff_iff]
  cases kind with
  | service => simp only [declares, Descriptor.declares, SortedMap.contains_iff_mem_keys, hs]
  | auxService => simp only [declares, Descriptor.declares, SortedMap.contains_iff_mem_keys, ha]

theorem binding?_bare (t : ServiceTables) (slot : Slot) : t.bare.binding? slot = none := by
  obtain ⟨kind, target, family, key⟩ := slot
  cases kind with
  | service =>
    simp only [binding?, bare, bindingIn?, SortedMap.get?_map]
    cases t.services.get? target <;> simp [Bearer.binding?_bare]
  | auxService =>
    simp only [binding?, bare, bindingIn?, SortedMap.get?_map]
    cases t.auxServices.get? target <;> simp [Bearer.binding?_bare]

theorem admits_iff_of_bare {t : ServiceTables} (h : t.bare = t) {ss : List Step} :
    t.Admits ss ↔ (∀ s ∈ ss, t.declares s.kind s.target = true) ∧
      ∀ s ∈ ss, ∀ s' ∈ ss, s.slot = s'.slot → s.binding = s'.binding := by
  have hnone : ∀ slot, t.binding? slot = none := fun slot => h ▸ t.binding?_bare slot
  exact ⟨fun ha => ⟨ha.declared, ha.agree⟩, fun ⟨hd, ha⟩ => ⟨hd, by simp [hnone], ha⟩⟩

theorem IsResult.keys {t t' : ServiceTables} {ss : List Step} (h : t.IsResult ss t') :
    t'.services.keys = t.services.keys ∧ t'.auxServices.keys = t.auxServices.keys := by
  have hs := congrArg (fun u : ServiceTables => u.services.keys) h.bare
  have ha := congrArg (fun u : ServiceTables => u.auxServices.keys) h.bare
  simp only [ServiceTables.bare, SortedMap.keys_map] at hs ha
  exact ⟨hs, ha⟩

end ServiceTables

theorem resolve_eq_ok_iff {t t' : ServiceTables} {d : Descriptor} :
    resolve t d = .ok t' ↔ t.run (Step.ofDescriptor d) = (t', none) := by
  rw [resolve_eq]
  rcases t.run (Step.ofDescriptor d) with ⟨t₁, _ | e⟩ <;> simp

theorem resolve_eq_error_of_run {t t' : ServiceTables} {d : Descriptor} {e : GenerateError}
    (h : t.run (Step.ofDescriptor d) = (t', some e)) : resolve t d = .error e := by
  simp only [resolve_eq, h]

theorem binding?_of_resolve {d : Descriptor} {t t' : ServiceTables}
    (h : ServiceTables.ofDescriptor d = .ok t) (hr : resolve t d = .ok t') (slot : Slot)
    (b : Binding) :
    t'.binding? slot = some b ↔ ∃ s, Asks d s ∧ s.slot = slot ∧ s.binding = b := by
  have hres := (ServiceTables.run_eq_ok_iff.1 (resolve_eq_ok_iff.1 hr)).2
  have hnone := ServiceTables.bare_ofDescriptor h ▸ t.binding?_bare slot
  simp only [hres.binding?, hnone, reduceCtorEq, false_or, Step.mem_ofDescriptor]

theorem service_binding?_of_resolve {d : Descriptor} {t t' : ServiceTables}
    (h : ServiceTables.ofDescriptor d = .ok t) (hr : resolve t d = .ok t') {id : String}
    {srv : Service} (hs : t'.services.get? id = some srv) (f : Family) (key : String)
    (b : Binding) :
    srv.binding? f key = some b ↔ b.family = f ∧ Asks d (.service id key b) := by
  have hb : t'.binding? ⟨.service, id, f, key⟩ = srv.binding? f key := by
    simp [ServiceTables.binding?, bindingIn?, hs, Bearer.binding?]
  rw [← hb, binding?_of_resolve h hr]
  constructor
  · rintro ⟨s, ha, hslot, rfl⟩
    have hf : s.family = f := congrArg Slot.family hslot
    subst hf
    exact ⟨rfl, Step.eq_service hslot rfl ▸ ha⟩
  · rintro ⟨rfl, ha⟩
    exact ⟨_, ha, rfl, rfl⟩

theorem auxService_binding?_of_resolve {d : Descriptor} {t t' : ServiceTables}
    (h : ServiceTables.ofDescriptor d = .ok t) (hr : resolve t d = .ok t') {id : String}
    {srv : AuxService} (hs : t'.auxServices.get? id = some srv) (f : Family) (key : String)
    (b : SharedBinding) :
    srv.binding? f key = some b ↔ b.family = f ∧ Asks d (.auxService id key b) := by
  have hb : t'.binding? ⟨.auxService, id, f, key⟩ = (srv.binding? f key).map .shared := by
    simp [ServiceTables.binding?, bindingIn?, hs, Bearer.binding?]
  have hmap : srv.binding? f key = some b ↔
      (srv.binding? f key).map Binding.shared = some (.shared b) := by
    cases srv.binding? f key <;> simp
  rw [hmap, ← hb, binding?_of_resolve h hr]
  constructor
  · rintro ⟨s, ha, hslot, hbind⟩
    have hf : s.family = f := congrArg Slot.family hslot
    have hf' : b.family = f := by rw [← hf, Step.family, hbind]; rfl
    subst hf'
    exact ⟨rfl, Step.eq_auxService hslot hbind ▸ ha⟩
  · rintro ⟨rfl, ha⟩
    exact ⟨_, ha, rfl, rfl⟩

/-- References resolve if and only if their targets are declared and no two of them bind different
things in one slot. All services are there afterwards with their own sections, and each holds
exactly the bindings that the descriptor asks for. -/
theorem resolve_exact {d : Descriptor} {t : ServiceTables}
    (h : ServiceTables.ofDescriptor d = .ok t) :
    ((∃ t', resolve t d = .ok t') ↔
      (∀ s, Asks d s → d.declares s.kind s.target = true) ∧
      ∀ s s', Asks d s → Asks d s' → s.slot = s'.slot → s.binding = s'.binding) ∧
    ∀ t', resolve t d = .ok t' →
      t'.services.keys = d.services.keys ∧ t'.auxServices.keys = d.auxServices.keys ∧
      t'.bare = t ∧
      (∀ id srv, t'.services.get? id = some srv → ∀ family key b,
        srv.binding? family key = some b ↔ b.family = family ∧ Asks d (.service id key b)) ∧
      ∀ id srv, t'.auxServices.get? id = some srv → ∀ family key b,
        srv.binding? family key = some b ↔ b.family = family ∧ Asks d (.auxService id key b) := by
  constructor
  · simp only [resolve_eq_ok_iff, ServiceTables.exists_run_iff,
      ServiceTables.admits_iff_of_bare (ServiceTables.bare_ofDescriptor h),
      ServiceTables.declares_ofDescriptor h, Step.mem_ofDescriptor]
    exact ⟨fun ⟨hd, ha⟩ => ⟨hd, fun s s' hs hs' => ha s hs s' hs'⟩,
      fun ⟨hd, ha⟩ => ⟨hd, fun s hs s' hs' => ha s s' hs hs'⟩⟩
  · intro t' hr
    have hres := (ServiceTables.run_eq_ok_iff.1 (resolve_eq_ok_iff.1 hr)).2
    have hkeys := hres.keys
    have hkeys' := ServiceTables.keys_ofDescriptor h
    exact ⟨hkeys.1.trans hkeys'.1, hkeys.2.trans hkeys'.2,
      hres.bare.trans (ServiceTables.bare_ofDescriptor h),
      fun _ _ hs f key b => service_binding?_of_resolve h hr hs f key b,
      fun _ _ hs f key b => auxService_binding?_of_resolve h hr hs f key b⟩

/-- A front end that reads from a database, which a helper fills. -/
def shop : Descriptor where
  services := .ofList [("db", {}), ("web", {})]
  auxServices := .ofList [("migrate", {})]
  serviceReferences := .ofList [("db", [⟨"DB_HOST", some "postgres://", ["web"], ["migrate"]⟩])]
  volumes := .ofList [("data", [⟨"/data", ["db", "db"], []⟩])]
  secrets := .ofList [("cert", { targets := [⟨some "/certs", some "CERT", some "pem", ["web"]⟩] })]

def shopTables : ServiceTables where
  services := .ofList
    [("db", { runConfig := .ofDescriptor {} }), ("web", { runConfig := .ofDescriptor {} })]
  auxServices := .ofList [("migrate", { runConfig := .ofDescriptor {} })]

theorem resolve_exact_shop :
    ServiceTables.ofDescriptor shop = .ok shopTables ∧
    ∃ t', resolve shopTables shop = .ok t' ∧ ∃ web, t'.services.get? "web" = some web ∧
      web.binding? .secretMount "/certs" = some (.secretMount ⟨"cert", some "pem"⟩) := by
  have h : ServiceTables.ofDescriptor shop = .ok shopTables := by rfl
  obtain ⟨t', hr⟩ : ∃ t', resolve shopTables shop = .ok t' := ⟨_, rfl⟩
  obtain ⟨hkeys, _, _, hsrv, _⟩ := (resolve_exact h).2 t' hr
  obtain ⟨web, hw⟩ := SortedMap.mem_keys.1 (hkeys ▸ (by decide : "web" ∈ shop.services.keys))
  refine ⟨h, t', hr, web, hw, (hsrv "web" web hw _ _ _).2 ⟨rfl, ?_⟩⟩
  exact Step.mem_ofDescriptor.1 (by decide)

/-- The steps of a descriptor may be taken in any order: all orders succeed or none does, and all
end in the same tables. -/
theorem run_perm_iff_resolve {d : Descriptor} {ss : List Step}
    (h : ss.Perm (Step.ofDescriptor d)) (t t' : ServiceTables) :
    t.run ss = (t', none) ↔ resolve t d = .ok t' := by
  rw [resolve_eq_ok_iff]
  exact ServiceTables.run_eq_ok_congr (fun _ => h.mem_iff) t t'

theorem run_reverse_shop :
    ∃ t', resolve shopTables shop = .ok t' ∧
      shopTables.run (Step.ofDescriptor shop).reverse = (t', none) := by
  obtain ⟨t', hr⟩ : ∃ t', resolve shopTables shop = .ok t' := ⟨_, rfl⟩
  exact ⟨t', hr, (run_perm_iff_resolve (List.reverse_perm _) shopTables t').2 hr⟩

end ModuleCompiler.Module
