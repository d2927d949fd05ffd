import ModuleCompiler.Proofs.Generation.Check

/-!
Which error a descriptor without a module has. It is that of the first check that fails, whatever
else is wrong with the descriptor.
-/

namespace ModuleCompiler.Module

/-- Nothing that is made before fails, and this does. -/
structure Check.IsFirstFailure (d : Descriptor) (check : Check) (e : GenerateError) : Prop where
  fails : check.FailsWith d e
  first : ∀ (earlier : Check) e', earlier.Precedes check → ¬ earlier.FailsWith d e'

section References

variable {d : Descriptor} {t t' : ServiceTables}

theorem declared_of_resolve (h : ServiceTables.ofDescriptor d = .ok t)
    (hr : resolve t d = .ok t') {s : Step} (hs : Asks d s) :
    d.declares s.kind s.target = true := by
  have ha := (ServiceTables.run_eq_ok_iff.1 (resolve_eq_ok_iff.1 hr)).1
  rw [← ServiceTables.declares_ofDescriptor h]
  exact ha.declared s (Step.mem_ofDescriptor.2 hs)

/-- A resolution that fails does so at the first step that cannot be taken. -/
theorem resolve_error_cases (hd : ∀ kind id, t.declares kind id = d.declares kind id)
    (hb : t.bare = t) {e : GenerateError} (h : resolve t d = .error e) :
    ∃ earlier s, IsFirstFault d (Step.ofDescriptor d) earlier s ∧
      ((d.declares s.kind s.target = false ∧ e = .undefinedTarget s.family s.kind s.target) ∨
        (d.declares s.kind s.target = true ∧ ∃ first,
          earlier.find? (·.slot = s.slot) = some first ∧
          e = .conflict s.family s.target s.key first.origin s.origin)) := by
  have hn : ¬ t.Admits (Step.ofDescriptor d) := by
    intro ha
    obtain ⟨u, hu⟩ := ServiceTables.exists_run_iff.2 ha
    rw [resolve_eq_ok_iff.2 hu] at h
    cases h
  obtain ⟨earlier, s, hf⟩ := ServiceTables.exists_firstFault hd hb hn
  obtain ⟨u, hu⟩ := ServiceTables.run_of_firstFault hd hb hf
  refine ⟨earlier, s, hf, hu.imp (fun ⟨hy, hr⟩ => ⟨hy, ?_⟩) fun ⟨hy, first, hfirst, hr⟩ =>
    ⟨hy, first, hfirst, ?_⟩⟩
  · exact Except.error.inj (h.symm.trans (resolve_eq_error_of_run hr))
  · exact Except.error.inj (h.symm.trans (resolve_eq_error_of_run hr))

/-- Resolution looks at the declared names and not at what the services hold besides. -/
theorem resolve_error_congr (hd : ∀ kind id, t.declares kind id = d.declares kind id)
    (hb : t.bare = t) (hd' : ∀ kind id, t'.declares kind id = d.declares kind id)
    (hb' : t'.bare = t') {e : GenerateError} (h : resolve t d = .error e) :
    resolve t' d = .error e := by
  obtain ⟨earlier, s, hf, he⟩ := resolve_error_cases hd hb h
  obtain ⟨u, hu⟩ := ServiceTables.run_of_firstFault hd' hb' hf
  -- the first fault is the same for both, and so is what is told of it
  rcases he with ⟨hy, rfl⟩ | ⟨hy, first, hfirst, rfl⟩ <;>
    rcases hu with ⟨hy', hr⟩ | ⟨hy', first', hfirst', hr⟩
  · exact resolve_eq_error_of_run hr
  · simp [hy] at hy'
  · simp [hy] at hy'
  · cases hfirst.symm.trans hfirst'
    exact resolve_eq_error_of_run hr

theorem ServiceTables.bare_blank (d : Descriptor) : (blank d).bare = blank d := by
  have hs : ((blank d).services.map fun _ => Bearer.bare) = (blank d).services := by
    apply SortedMap.ext_get?
    intro id
    simp only [blank, SortedMap.get?_map]
    cases d.services.get? id <;> rfl
  have ha : ((blank d).auxServices.map fun _ => Bearer.bare) = (blank d).auxServices := by
    apply SortedMap.ext_get?
    intro id
    simp only [blank, SortedMap.get?_map]
    cases d.auxServices.get? id <;> rfl
  simp only [bare, hs, ha]

theorem ServiceTables.declares_blank (d : Descriptor) (kind : ServiceKind) (id : String) :
    (blank d).declares kind id = d.declares kind id := by
  cases kind <;> exact SortedMap.contains_map _ _ _

theorem resolve_eq_error_iff_blank (h : ServiceTables.ofDescriptor d = .ok t) {e : GenerateError} :
    resolve t d = .error e ↔ resolve (.blank d) d = .error e := by
  have hd := ServiceTables.declares_ofDescriptor h
  have hb := ServiceTables.bare_ofDescriptor h
  have hd' := ServiceTables.declares_blank d
  have hb' := ServiceTables.bare_blank d
  exact ⟨resolve_error_congr hd hb hd' hb', resolve_error_congr hd' hb' hd hb⟩

end References

section Services

variable {d : Descriptor} {id : String} {e : GenerateError}

theorem Service.passes {s : Descriptor.Service} {srv : Service}
    (hs : d.services.get? id = some s) (h : Service.ofDescriptor id s = .ok srv)
    (part : ServiceSection) (e : GenerateError) : ¬ (Check.service id part).FailsWith d e := by
  simp only [Service.ofDescriptor, inSection, bind_eq_ok_iff, mapError_eq_ok_iff] at h
  obtain ⟨_, hb, _, ht, _, he, _, hp, _⟩ := h
  intro hf
  cases hf <;> simp_all

theorem Service.fails {s : Descriptor.Service} (hs : d.services.get? id = some s)
    (h : Service.ofDescriptor id s = .error e) :
    ∃ part, (Check.service id part).FailsWith d e ∧ ∀ part' e',
      part'.position < part.position → ¬ (Check.service id part').FailsWith d e' := by
  -- in each case the sections before the failed one have been passed
  simp only [Service.ofDescriptor, inSection, bind_eq_error_iff, mapError_eq_error_iff,
    mapError_eq_ok_iff] at h
  rcases h with ⟨_, hc, rfl⟩ | ⟨_, hb, ⟨_, hc, rfl⟩ | ⟨_, ht, ⟨_, hc, rfl⟩ |
    ⟨_, he, ⟨_, hc, rfl⟩ | ⟨_, _, hr⟩⟩⟩⟩
  · refine ⟨_, .bindMounts hs hc, fun part' e' hlt hf => ?_⟩
    cases hf <;> simp [ServiceSection.position] at hlt
  · refine ⟨_, .tmpfsMounts hs hc, fun part' e' hlt hf => ?_⟩
    cases hf <;> simp_all [ServiceSection.position]
  · refine ⟨_, .httpEndpoints hs hc, fun part' e' hlt hf => ?_⟩
    cases hf <;> simp_all [ServiceSection.position]
  · refine ⟨_, .ports hs hc, fun part' e' hlt hf => ?_⟩
    cases hf <;> simp_all [ServiceSection.position]
  · cases hr

theorem AuxService.passes {s : Descriptor.AuxService} {srv : AuxService}
    (hs : d.auxServices.get? id = some s) (h : AuxService.ofDescriptor id s = .ok srv)
    (part : ServiceSection) (e : GenerateError) : ¬ (Check.auxService id part).FailsWith d e := by
  simp only [AuxService.ofDescriptor, inSection, bind_eq_ok_iff, mapError_eq_ok_iff] at h
  obtain ⟨_, hb, _, ht, _⟩ := h
  intro hf
  cases hf <;> simp_all

theorem AuxService.fails {s : Descriptor.AuxService} (hs : d.auxServices.get? id = some s)
    (h : AuxService.ofDescriptor id s = .error e) :
    ∃ part, (Check.auxService id part).FailsWith d e ∧ ∀ part' e',
      part'.position < part.position → ¬ (Check.auxService id part').FailsWith d e' := by
  simp only [AuxService.ofDescriptor, inSection, bind_eq_error_iff, mapError_eq_error_iff,
    mapError_eq_ok_iff] at h
  rcases h with ⟨_, hc, rfl⟩ | ⟨_, hb, ⟨_, hc, rfl⟩ | ⟨_, _, hr⟩⟩
  · refine ⟨_, .auxBindMounts hs hc, fun part' e' hlt hf => ?_⟩
    cases hf <;> simp [ServiceSection.position] at hlt
  · refine ⟨_, .auxTmpfsMounts hs hc, fun part' e' hlt hf => ?_⟩
    cases hf <;> simp_all [ServiceSection.position]
  · cases hr

end Services

section Phases

variable {d : Descriptor} {e : GenerateError}

theorem ConfigEntry.all_pass {entries : SortedMap ConfigEntry}
    (h : ConfigEntry.ofDescriptors d.configs = .ok entries) (name : String) (e : GenerateError) :
    ¬ (Check.config name).FailsWith d e := by
  intro hf
  cases hf with
  | config hc hcause =>
    obtain ⟨_, _, hok⟩ := SortedMap.get?_traverse h hc
    rw [mapError_eq_ok_iff, hcause] at hok
    cases hok

theorem Service.all_pass {services : SortedMap Service}
    (h : Service.ofDescriptors d.services = .ok services) (id : String) (part : ServiceSection)
    (e : GenerateError) : ¬ (Check.service id part).FailsWith d e := by
  intro hf
  obtain ⟨s, hs⟩ := hf.exists_service
  obtain ⟨_, _, hok⟩ := SortedMap.get?_traverse h hs
  exact Service.passes hs hok part e hf

theorem AuxService.all_pass {auxServices : SortedMap AuxService}
    (h : AuxService.ofDescriptors d.auxServices = .ok auxServices) (id : String)
    (part : ServiceSection) (e : GenerateError) : ¬ (Check.auxService id part).FailsWith d e := by
  intro hf
  obtain ⟨s, hs⟩ := hf.exists_auxService
  obtain ⟨_, _, hok⟩ := SortedMap.get?_traverse h hs
  exact AuxService.passes hs hok part e hf

theorem ConfigEntry.exists_first (h : ConfigEntry.ofDescriptors d.configs = .error e) :
    ∃ check : Check, check.IsFirstFailure d e := by
  obtain ⟨name, c, hc, hf, hfirst⟩ := SortedMap.first_of_traverse_error h
  obtain ⟨cause, hcause, rfl⟩ := mapError_eq_error_iff.1 hf
  refine ⟨.config name, .config hc hcause, fun earlier e' hp hf' => ?_⟩
  cases hf' with
  | config hc' hcause' =>
    have hlt := hp.resolve_left (by simp [Check.phase])
    have hname := hlt.2.resolve_right (by simp [Check.position])
    obtain ⟨_, hok⟩ := hfirst _ _ hc' hname
    rw [mapError_eq_ok_iff, hcause'] at hok
    cases hok
  | _ => simp [Check.Precedes, Check.phase] at hp

theorem Service.exists_first (hconfigs : ∀ name e', ¬ (Check.config name).FailsWith d e')
    (h : Service.ofDescriptors d.services = .error e) :
    ∃ check : Check, check.IsFirstFailure d e := by
  obtain ⟨id, s, hs, hf, hfirst⟩ := SortedMap.first_of_traverse_error h
  obtain ⟨part, hpart, hbefore⟩ := Service.fails hs hf
  refine ⟨.service id part, hpart, fun earlier e' hp hf' => ?_⟩
  cases earlier with
  | config name => exact hconfigs name e' hf'
  | service id' part' =>
    rcases (hp.resolve_left (by simp [Check.phase])).2 with hid | ⟨hid, hlt⟩
    · obtain ⟨s', hs'⟩ := hf'.exists_service
      obtain ⟨_, hok⟩ := hfirst _ _ hs' hid
      exact Service.passes hs' hok part' e' hf'
    · cases hid
      exact hbefore part' e' hlt hf'
  | _ => simp [Check.Precedes, Check.phase] at hp

theorem AuxService.exists_first (hconfigs : ∀ name e', ¬ (Check.config name).FailsWith d e')
    (hservices : ∀ id part e', ¬ (Check.service id part).FailsWith d e')
    (h : AuxService.ofDescriptors d.auxServices = .error e) :
    ∃ check : Check, check.IsFirstFailure d e := by
  obtain ⟨id, s, hs, hf, hfirst⟩ := SortedMap.first_of_traverse_error h
  obtain ⟨part, hpart, hbefore⟩ := AuxService.fails hs hf
  refine ⟨.auxService id part, hpart, fun earlier e' hp hf' => ?_⟩
  cases earlier with
  | config name => exact hconfigs name e' hf'
  | service id' part' => exact hservices id' part' e' hf'
  | auxService id' part' =>
    rcases (hp.resolve_left (by simp [Check.phase])).2 with hid | ⟨hid, hlt⟩
    · obtain ⟨s', hs'⟩ := hf'.exists_auxService
      obtain ⟨_, hok⟩ := hfirst _ _ hs' hid
      exact AuxService.passes hs' hok part' e' hf'
    · cases hid
      exact hbefore part' e' hlt hf'
  | references => simp [Check.Precedes, Check.phase] at hp

end Phases

theorem all_pass_of_ofDescriptor {d : Descriptor} {m : Module} (h : Module.ofDescriptor d = .ok m)
    (check : Check) (e : GenerateError) : ¬ check.FailsWith d e := by
  simp only [Module.ofDescriptor, bind_eq_ok_iff] at h
  obtain ⟨_, hc, t, ht, t', hr, _⟩ := h
  obtain ⟨hs, ha⟩ := ServiceTables.of_ofDescriptor ht
  cases check with
  | config name => exact ConfigEntry.all_pass hc name e
  | service id part => exact Service.all_pass hs id part e
  | auxService id part => exact AuxService.all_pass ha id part e
  | references =>
    intro hf
    cases hf with
    | references hb =>
      rw [(resolve_eq_error_iff_blank ht).2 hb] at hr
      cases hr

theorem exists_first_of_ofDescriptor {d : Descriptor} {e : GenerateError}
    (h : Module.ofDescriptor d = .error e) : ∃ check : Check, check.IsFirstFailure d e := by
  simp only [Module.ofDescriptor, ServiceTables.ofDescriptor, bind_eq_error_iff,
    bind_eq_ok_iff] at h
  rcases h with hc | ⟨_, hc, (hs | ⟨_, hs, ha | ⟨_, _, hp⟩⟩) |
    ⟨t, ⟨services, hs, aux, ha, ht⟩, hr | ⟨_, _, hp⟩⟩⟩
  · exact ConfigEntry.exists_first hc
  · exact Service.exists_first (ConfigEntry.all_pass hc) hs
  · exact AuxService.exists_first (ConfigEntry.all_pass hc) (Service.all_pass hs) ha
  · cases hp
  · have htables : ServiceTables.ofDescriptor d = .ok t := by
      simp only [ServiceTables.ofDescriptor, bind_eq_ok_iff]
      exact ⟨services, hs, aux, ha, ht⟩
    refine ⟨.references, .references ((resolve_eq_error_iff_blank htables).1 hr),
      fun earlier e' hlt hf => ?_⟩
    cases earlier with
    | config name => exact ConfigEntry.all_pass hc name e' hf
    | service id part => exact Service.all_pass hs id part e' hf
    | auxService id part => exact AuxService.all_pass ha id part e' hf
    | references => simp [Check.Precedes, Check.phase, Check.subject, Check.position] at hlt
  · cases hp

/-- A descriptor has no module if and only if some check fails by itself, and then it has the error
of the first one: neither a later failure nor an earlier success changes what is told. -/
theorem ofDescriptor_first_failure (d : Descriptor) :
    ((∃ e, Module.ofDescriptor d = .error e) ↔ ∃ check, ∃ e, Check.FailsWith d check e) ∧
    (∀ e, Module.ofDescriptor d = .error e ↔ ∃ check, Check.IsFirstFailure d check e) ∧
    ((∃ m, Module.ofDescriptor d = .ok m) ↔ ∀ check e, ¬ Check.FailsWith d check e) := by
  cases h : Module.ofDescriptor d with
  | ok m =>
    have hpass := all_pass_of_ofDescriptor h
    refine ⟨⟨nofun, fun ⟨check, e, hf⟩ => absurd hf (hpass check e)⟩, fun e => ⟨nofun, ?_⟩,
      ⟨fun _ => hpass, fun _ => ⟨m, rfl⟩⟩⟩
    rintro ⟨check, hf⟩
    exact absurd hf.fails (hpass check e)
  | error e =>
    obtain ⟨check, hcheck⟩ := exists_first_of_ofDescriptor h
    refine ⟨⟨fun _ => ⟨check, e, hcheck.fails⟩, fun _ => ⟨e, rfl⟩⟩, fun e' => ⟨?_, ?_⟩, ?_⟩
    · intro he
      cases he
      exact ⟨check, hcheck⟩
    · rintro ⟨check', hcheck'⟩
      rcases check.precedes_trichotomy check' with hlt | rfl | hlt
      · exact absurd hcheck.fails (hcheck'.first _ _ hlt)
      · rw [hcheck.fails.unique hcheck'.fails]
      · exact absurd hcheck'.fails (hcheck.first _ _ hlt)
    · exact ⟨nofun, fun hpass => absurd hcheck.fails (hpass check e)⟩

end ModuleCompiler.Module
