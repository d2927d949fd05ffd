import ModuleCompiler.Proofs.Compilation
import ModuleCompiler.Proofs.Generation.FirstFailure

/-!
References among the services of a module. The services that receive a reference have to be
declared. The name that is referred to is taken over as it stands, so it may be that of no service.
-/

namespace ModuleCompiler

namespace Module

theorem Asks.of_serviceReference {d : Descriptor} {id key : String} {r : ServiceReference}
    (h : Asks d (.service id key (.shared (.serviceReference r)))) :
    ∃ targets, d.serviceReferences.get? r.reference = some targets ∧
      ∃ t ∈ targets, t.refVar = key ∧ t.template = r.template ∧ id ∈ t.services := by
  cases h with
  | service hs hid =>
    cases hs with
    | serviceReference he ht => exact ⟨_, he, _, ht, rfl, rfl, hid⟩

theorem Asks.of_aux_serviceReference {d : Descriptor} {id key : String} {r : ServiceReference}
    (h : Asks d (.auxService id key (.serviceReference r))) :
    ∃ targets, d.serviceReferences.get? r.reference = some targets ∧
      ∃ t ∈ targets, t.refVar = key ∧ t.template = r.template ∧ id ∈ t.auxServices := by
  cases h with
  | auxService hs hid =>
    cases hs with
    | serviceReference he ht => exact ⟨_, he, _, ht, rfl, rfl, hid⟩

theorem IsFirstFault.eq_or_precedes {d : Descriptor} {ss earlier : List Step} {s r : Step}
    (h : IsFirstFault d ss earlier s) (ho : ss.Pairwise Step.Precedes) (hr : r ∈ ss)
    (hn : d.declares r.kind r.target = false) : r = s ∨ s.Precedes r := by
  obtain ⟨later, rfl⟩ := h.split
  rcases List.mem_append.1 hr with hr | hr
  · obtain ⟨before, between, he⟩ := List.append_of_mem hr
    exact absurd (.inl hn) (h.first before r between he)
  · rcases List.mem_cons.1 hr with hr | hr
    · exact .inl hr
    · exact .inr ((List.pairwise_cons.1 (List.pairwise_append.1 ho).2.1).1 r hr)

theorem Step.family_of_precedes {s r : Step} (h : s.Precedes r)
    (hr : r.family = .serviceReference) : s.family = .serviceReference := by
  have hpass : s.pass ≤ r.pass := by
    rcases h with h | h
    · exact Nat.le_of_lt h
    · exact Nat.le_of_eq h.1
  have hr' : r.pass ≤ 1 := by
    rw [Step.pass, hr]
    cases r.kind <;> decide
  have hs : passOf s.family s.kind ≤ 1 := Nat.le_trans hpass hr'
  revert hs
  cases s.family <;> cases s.kind <;> decide

/-- The first fault of all is one of the service references if one of these is not declared. -/
theorem undefined_of_serviceReference {d : Descriptor} {e : GenerateError} {r : Step}
    (h : resolve (.blank d) d = .error e) (hr : Asks d r) (hf : r.family = .serviceReference)
    (hn : d.declares r.kind r.target = false)
    (hagree : ∀ s s', Asks d s → Asks d s' → s.family = .serviceReference → s.slot = s'.slot →
      s.binding = s'.binding) :
    ∃ s, Asks d s ∧ s.family = .serviceReference ∧ d.declares s.kind s.target = false ∧
      e = .undefinedTarget .serviceReference s.kind s.target := by
  obtain ⟨earlier, s, hfault, he⟩ := resolve_error_cases (ServiceTables.declares_blank d)
    (ServiceTables.bare_blank d) h
  obtain ⟨later, hsplit⟩ := hfault.split
  have hmem : ∀ {q}, q ∈ earlier ++ s :: later → Asks d q := fun hq =>
    Step.mem_ofDescriptor.1 (hsplit ▸ hq)
  have hs : Asks d s := hmem (by simp)
  have hfamily : s.family = .serviceReference := by
    rcases hfault.eq_or_precedes (Step.ofDescriptor_ordered d) (Step.mem_ofDescriptor.2 hr) hn with
      rfl | hp
    · exact hf
    · exact Step.family_of_precedes hp hf
  rcases he with ⟨hu, rfl⟩ | ⟨hdecl, _⟩
  · exact ⟨s, hs, hfamily, hu, by rw [hfamily]⟩
  · rcases hfault.fails with hu | ⟨q, hq, hslot, hne⟩
    · simp [hu] at hdecl
    · exact absurd (hagree s q hs (hmem (by simp [hq])) hfamily hslot.symm).symm hne

/-- References on services come from entries of a descriptor that list these services. -/
structure HasReferencesOf (m : Module) (d : Descriptor) : Prop where
  services : ∀ id srv key r, m.services.get? id = some srv →
    srv.serviceReferences.get? key = some r →
    ∃ targets, d.serviceReferences.get? r.reference = some targets ∧
      ∃ t ∈ targets, t.refVar = key ∧ t.template = r.template ∧ id ∈ t.services
  auxServices : ∀ id srv key r, m.auxServices.get? id = some srv →
    srv.serviceReferences.get? key = some r →
    ∃ targets, d.serviceReferences.get? r.reference = some targets ∧
      ∃ t ∈ targets, t.refVar = key ∧ t.template = r.template ∧ id ∈ t.auxServices

theorem hasReferencesOf_of_ofDescriptor {d : Descriptor} {m : Module}
    (h : Module.ofDescriptor d = .ok m) : m.HasReferencesOf d := by
  obtain ⟨configs, t, t', _, ht, hr, rfl⟩ := eq_assemble_of_ofDescriptor h
  constructor
  · intro id srv key r hs hk
    have hb := service_binding?_of_resolve ht hr hs .serviceReference key
      (.shared (.serviceReference r))
    exact (hb.1 (by simp [Service.binding?, hk])).2.of_serviceReference
  · intro id srv key r hs hk
    have hb := auxService_binding?_of_resolve ht hr hs .serviceReference key (.serviceReference r)
    exact (hb.1 (by simp [AuxService.binding?, hk])).2.of_aux_serviceReference

/-- All but the references is sound, and these agree with each other. -/
structure OnlyLacksTargets (d : Descriptor) : Prop where
  passes : ∀ check e, check ≠ .references → ¬ Check.FailsWith d check e
  agrees : ∀ s s', Asks d s → Asks d s' → s.family = .serviceReference → s.slot = s'.slot →
    s.binding = s'.binding

end Module

open ModuleCompiler.Module

/-- Every reference on a service of a compiled module comes from an entry of the descriptor that
lists this service. A document with an entry that lists a service that is not declared has no
module, and if nothing else is wrong with it, the error names such a service. -/
theorem compile_serviceReferences (bytes : ByteArray) :
    (∀ m, compile bytes = .ok m →
      ∃ d, Descriptor.decoder.run (.ofBytes bytes) = .ok d ∧ m.HasReferencesOf d) ∧
    ∀ d r, Descriptor.decoder.run (.ofBytes bytes) = .ok d → Asks d r →
      r.family = .serviceReference → d.declares r.kind r.target = false →
      ∃ e, compile bytes = .error e ∧
        (Compiler.versionOf (.ofBytes bytes) = .ok (some VersionEntry.v1.version) →
          OnlyLacksTargets d →
          ∃ s, Asks d s ∧ s.family = .serviceReference ∧ d.declares s.kind s.target = false ∧
            e = .generate (.undefinedTarget .serviceReference s.kind s.target)) := by
  constructor
  · intro m hm
    obtain ⟨d, hd, hm⟩ := descriptor_of_compile hm
    exact ⟨d, hd, hasReferencesOf_of_ofDescriptor hm⟩
  · intro d r hd hr hf hn
    cases hc : compile bytes with
    | ok m =>
      obtain ⟨d', hd', hm⟩ := descriptor_of_compile hc
      cases hd.symm.trans hd'
      obtain ⟨_, t, t', _, ht, hres, _⟩ := eq_assemble_of_ofDescriptor hm
      simp [declared_of_resolve ht hres hr] at hn
    | error e =>
      refine ⟨e, rfl, fun hv hlacks => ?_⟩
      rw [compile_of_descriptor hv hd, mapError_eq_error_iff] at hc
      obtain ⟨e', he', rfl⟩ := hc
      obtain ⟨check, hcheck⟩ := exists_first_of_ofDescriptor he'
      -- the first failure is that of resolution, since no other check fails
      have hreferences : check = .references := by
        by_contra hne
        exact hlacks.passes check e' hne hcheck.fails
      subst hreferences
      cases hcheck.fails with
      | references hres =>
        obtain ⟨s, hs, hfamily, hu, rfl⟩ :=
          undefined_of_serviceReference hres hr hf hn hlacks.agrees
        exact ⟨s, hs, hfamily, hu, rfl⟩

/-- A web service that is told where to find a database, of which there is none. -/
def strandedDocument : ByteArray :=
  ("modfileVersion: v1\nservices:\n  web:\nserviceReferences:\n  db:\n" ++
    "  - refVar: DB_HOST\n    services: [web]\n").toUTF8

theorem compile_stranded : ∃ m, compile strandedDocument = .ok m ∧
    ((m.services.get? "web").bind fun web => (web.serviceReferences.get? "DB_HOST").map fun r =>
      (r.reference, m.services.contains "db", m.auxServices.contains "db")) =
      some ("db", false, false) :=
  exists_ok_of_toOption_bind (by decide +kernel)

/-- The database is told to a service that there is none of. -/
def unheardDocument : ByteArray :=
  ("modfileVersion: v1\nservices:\n  db:\nserviceReferences:\n  db:\n" ++
    "  - refVar: DB_HOST\n    services: [web]\n").toUTF8

theorem compile_serviceReferences_stranded :
    (∃ m d, compile strandedDocument = .ok m ∧
      Descriptor.decoder.run (.ofBytes strandedDocument) = .ok d ∧ m.HasReferencesOf d) ∧
    compile unheardDocument =
      .error (.generate (.undefinedTarget .serviceReference .service "web")) := by
  constructor
  · obtain ⟨m, hm, _⟩ := compile_stranded
    obtain ⟨d, hd, href⟩ := (compile_serviceReferences strandedDocument).1 m hm
    exact ⟨m, d, hm, hd, href⟩
  · let told : Step := .service "web" "DB_HOST" (.shared (.serviceReference ⟨"db", none⟩))
    obtain ⟨hv, d, hd, hf⟩ := exists_descriptor_of_eval unheardDocument
      (f := fun d => ((ConfigEntry.ofDescriptors d.configs).toOption.isSome,
        (ServiceTables.ofDescriptor d).toOption.isSome, Step.ofDescriptor d,
        d.declares .service "web"))
      (v := some "v1") (b := (true, true, [told], false)) (by decide +kernel)
    simp only [Prod.mk.injEq, Option.isSome_iff_exists] at hf
    obtain ⟨⟨_, hc⟩, ⟨_, ht⟩, hsteps, hn⟩ := hf
    have hasks : ∀ s, Asks d s ↔ s = told := by
      simp [← Step.mem_ofDescriptor, hsteps]
    obtain ⟨hservices, haux⟩ := ServiceTables.of_ofDescriptor (eq_ok_of_toOption ht)
    have hlacks : OnlyLacksTargets d := by
      constructor
      · intro check e hne
        cases check with
        | config name => exact ConfigEntry.all_pass (eq_ok_of_toOption hc) name e
        | service id part => exact Service.all_pass hservices id part e
        | auxService id part => exact AuxService.all_pass haux id part e
        | references => exact absurd rfl hne
      · intro s s' hs hs' _ _
        rw [(hasks s).1 hs, (hasks s').1 hs']
    obtain ⟨e, he, hnamed⟩ := (compile_serviceReferences unheardDocument).2 d told hd
      ((hasks told).2 rfl) rfl hn
    obtain ⟨s, hs, _, _, rfl⟩ := hnamed hv hlacks
    cases (hasks s).1 hs
    exact he

theorem exists_undeclared_reference :
    ∃ m web r, compile strandedDocument = .ok m ∧ m.services.get? "web" = some web ∧
      web.serviceReferences.get? "DB_HOST" = some r ∧ m.services.contains r.reference = false ∧
      m.auxServices.contains r.reference = false := by
  obtain ⟨m, hm, hf⟩ := compile_stranded
  obtain ⟨web, hweb, hf⟩ := Option.bind_eq_some_iff.1 hf
  obtain ⟨r, hr, hf⟩ := Option.map_eq_some_iff.1 hf
  simp only [Prod.mk.injEq] at hf
  exact ⟨m, web, r, hm, hweb, hr, hf.1 ▸ hf.2.1, hf.1 ▸ hf.2.2⟩

end ModuleCompiler
