import ModuleCompiler.Proofs.Closure
import ModuleCompiler.Proofs.Generation.FirstFailure
import ModuleCompiler.Proofs.Generation.Mounts

/-!
Places of a service, that is, its mount points and variables. Each family of mounts and references
has one thing in a place. Families do not know of each other, so a place may be taken by several.
-/

namespace ModuleCompiler

namespace Module

/-- Two things of one family are wanted in one place of a service. -/
inductive Clash (d : Descriptor) : Prop
  | bindMounts {id : String} {s : Descriptor.Service} :
      d.services.get? id = some s → BindMount.Clash s.bindMounts → Clash d
  | tmpfs {id : String} {s : Descriptor.Service} :
      d.services.get? id = some s → TmpfsMount.Clash s.tmpfs → Clash d
  | auxBindMounts {id : String} {s : Descriptor.AuxService} :
      d.auxServices.get? id = some s → BindMount.Clash s.bindMounts → Clash d
  | auxTmpfs {id : String} {s : Descriptor.AuxService} :
      d.auxServices.get? id = some s → TmpfsMount.Clash s.tmpfs → Clash d
  | references {s s' : Step} :
      Asks d s → Asks d s' → s.slot = s'.slot → s.binding ≠ s'.binding → Clash d

/-- What is in a place of a module is what its descriptor wants there. -/
structure KeepsPlaces (m : Module) (d : Descriptor) : Prop where
  mounts : ∀ id srv, m.services.get? id = some srv → ∃ s, d.services.get? id = some s ∧
    KeepsMounts srv.bindMounts srv.tmpfs s.bindMounts s.tmpfs
  auxMounts : ∀ id srv, m.auxServices.get? id = some srv → ∃ s, d.auxServices.get? id = some s ∧
    KeepsMounts srv.bindMounts srv.tmpfs s.bindMounts s.tmpfs
  references : ∀ slot b, ServiceTables.binding? ⟨m.services, m.auxServices⟩ slot = some b ↔
    ∃ s, Asks d s ∧ s.slot = slot ∧ s.binding = b

theorem keepsPlaces_of_ofDescriptor {d : Descriptor} {m : Module}
    (h : Module.ofDescriptor d = .ok m) : m.KeepsPlaces d := by
  obtain ⟨configs, t, t', _, ht, hr, rfl⟩ := eq_assemble_of_ofDescriptor h
  have hbare : t'.bare = t := by
    rw [(ServiceTables.run_eq_ok_iff.1 (resolve_eq_ok_iff.1 hr)).2.bare]
    exact ServiceTables.bare_ofDescriptor ht
  obtain ⟨hservices, haux⟩ := ServiceTables.of_ofDescriptor ht
  constructor
  · intro id srv hsrv
    have hown : t.services.get? id = some srv.bare := by
      rw [← hbare]
      exact (SortedMap.get?_map _ _ _).trans (congrArg _ hsrv)
    obtain ⟨s, hs, hok⟩ := SortedMap.get?_of_traverse hservices hown
    have hkeeps := Service.keepsMounts hok
    exact ⟨s, hs, hkeeps⟩
  · intro id srv hsrv
    have hown : t.auxServices.get? id = some srv.bare := by
      rw [← hbare]
      exact (SortedMap.get?_map _ _ _).trans (congrArg _ hsrv)
    obtain ⟨s, hs, hok⟩ := SortedMap.get?_of_traverse haux hown
    have hkeeps := AuxService.keepsMounts hok
    exact ⟨s, hs, hkeeps⟩
  · exact fun slot b => binding?_of_resolve ht hr slot b

theorem not_clash_of_ofDescriptor {d : Descriptor} {m : Module}
    (h : Module.ofDescriptor d = .ok m) : ¬ Clash d := by
  have hkeeps := keepsPlaces_of_ofDescriptor h
  have hservice : ∀ {id s}, d.services.get? id = some s → ∃ srv : Service,
      KeepsMounts srv.bindMounts srv.tmpfs s.bindMounts s.tmpfs := by
    intro id s hs
    have hid := SortedMap.mem_keys_of_eq (isComplete_of_ofDescriptor h).services hs
    obtain ⟨srv, hsrv⟩ := SortedMap.mem_keys.1 hid
    obtain ⟨s', hs', hk⟩ := hkeeps.mounts id srv hsrv
    cases hs.symm.trans hs'
    exact ⟨srv, hk⟩
  have haux : ∀ {id s}, d.auxServices.get? id = some s → ∃ srv : AuxService,
      KeepsMounts srv.bindMounts srv.tmpfs s.bindMounts s.tmpfs := by
    intro id s hs
    have hid := SortedMap.mem_keys_of_eq (isComplete_of_ofDescriptor h).auxServices hs
    obtain ⟨srv, hsrv⟩ := SortedMap.mem_keys.1 hid
    obtain ⟨s', hs', hk⟩ := hkeeps.auxMounts id srv hsrv
    cases hs.symm.trans hs'
    exact ⟨srv, hk⟩
  intro hc
  cases hc with
  | bindMounts hs hclash =>
    obtain ⟨_, hk⟩ := hservice hs
    exact hk.bindMounts_unique hclash
  | tmpfs hs hclash =>
    obtain ⟨_, hk⟩ := hservice hs
    exact hk.tmpfs_unique hclash
  | auxBindMounts hs hclash =>
    obtain ⟨_, hk⟩ := haux hs
    exact hk.bindMounts_unique hclash
  | auxTmpfs hs hclash =>
    obtain ⟨_, hk⟩ := haux hs
    exact hk.tmpfs_unique hclash
  | references hs hs' hslot hne =>
    have hb := (hkeeps.references _ _).2 ⟨_, hs, rfl, rfl⟩
    have hb' := (hkeeps.references _ _).2 ⟨_, hs', hslot.symm, rfl⟩
    exact hne (Option.some.inj (hb.symm.trans hb'))

/-- Configs, ports and targets of references are sound, so that only places can collide. -/
structure OnlyClashes (d : Descriptor) : Prop where
  configs : ∀ name e, ¬ (Check.config name).FailsWith d e
  ports : ∀ id e, ¬ (Check.service id .ports).FailsWith d e
  declared : ∀ s, Asks d s → d.declares s.kind s.target = true

theorem OnlyClashes.category_of_fails {d : Descriptor} (h : OnlyClashes d) {check : Check}
    {e : GenerateError} (he : check.FailsWith d e) : e.category = .conflict := by
  cases he with
  | config hc hcause => exact absurd (.config hc hcause) (h.configs _ _)
  | ports hs hcause => exact absurd (.ports hs hcause) (h.ports _ _)
  | references hr =>
    obtain ⟨earlier, s, hfault, hcases⟩ := resolve_error_cases (ServiceTables.declares_blank d)
      (ServiceTables.bare_blank d) hr
    rcases hcases with ⟨hu, rfl⟩ | ⟨_, _, _, rfl⟩
    · obtain ⟨later, hsplit⟩ := hfault.split
      have hs : Asks d s := Step.mem_ofDescriptor.1 (hsplit ▸ by simp)
      simp [h.declared s hs] at hu
    · rfl
  | _ => rfl

end Module

open ModuleCompiler.Module

/-- A family has one thing in a place of a service, and all that its descriptor wants there agrees
with it. A document that wants two things of one family in one place has no module, and if nothing
else is wrong with it, the error is one of conflict. -/
theorem compile_places (bytes : ByteArray) :
    (∀ m, compile bytes = .ok m →
      ∃ d, Descriptor.decoder.run (.ofBytes bytes) = .ok d ∧ m.KeepsPlaces d) ∧
    ∀ d, Descriptor.decoder.run (.ofBytes bytes) = .ok d → Clash d →
      ∃ e, compile bytes = .error e ∧
        (Compiler.versionOf (.ofBytes bytes) = .ok (some VersionEntry.v1.version) →
          OnlyClashes d → e.category = .conflict) := by
  constructor
  · intro m hm
    obtain ⟨d, hd, hm⟩ := descriptor_of_compile hm
    exact ⟨d, hd, keepsPlaces_of_ofDescriptor hm⟩
  · intro d hd hclash
    cases hc : compile bytes with
    | ok m =>
      obtain ⟨d', hd', hm⟩ := descriptor_of_compile hc
      cases hd.symm.trans hd'
      exact absurd hclash (not_clash_of_ofDescriptor hm)
    | error e =>
      refine ⟨e, rfl, fun hv honly => ?_⟩
      rw [compile_of_descriptor hv hd, mapError_eq_error_iff] at hc
      obtain ⟨e', he', rfl⟩ := hc
      obtain ⟨check, hcheck⟩ := exists_first_of_ofDescriptor he'
      exact honly.category_of_fails hcheck.fails

/-- A service with a bind mount and a volume at one mount point. -/
def overlaidDocument : ByteArray :=
  ("modfileVersion: v1\nservices:\n  web:\n    include:\n" ++
    "    - mountPoint: /data\n      source: files\n" ++
    "volumes:\n  data:\n  - mountPoint: /data\n    services: [web]\n").toUTF8

theorem compile_overlaid : ∃ m, compile overlaidDocument = .ok m ∧
    ((m.services.get? "web").map fun web => (web.bindMounts.keys, web.volumes.keys)) =
      some (["/data"], ["/data"]) :=
  exists_ok_of_toOption_bind (by decide +kernel)

/-- A service with two volumes at one mount point. -/
def crowdedDocument : ByteArray :=
  ("modfileVersion: v1\nservices:\n  web:\nvolumes:\n" ++
    "  data:\n  - mountPoint: /data\n    services: [web]\n" ++
    "  logs:\n  - mountPoint: /data\n    services: [web]\n").toUTF8

theorem compile_places_overlaid :
    (∃ m d, compile overlaidDocument = .ok m ∧
      Descriptor.decoder.run (.ofBytes overlaidDocument) = .ok d ∧ m.KeepsPlaces d) ∧
    ∃ e, compile crowdedDocument = .error e ∧ e.category = .conflict := by
  constructor
  · obtain ⟨m, hm, _⟩ := compile_overlaid
    obtain ⟨d, hd, hkeeps⟩ := (compile_places overlaidDocument).1 m hm
    exact ⟨m, d, hm, hd, hkeeps⟩
  · let data : Step := .service "web" "/data" (.shared (.volume "data"))
    let logs : Step := .service "web" "/data" (.shared (.volume "logs"))
    obtain ⟨hv, d, hd, hf⟩ := exists_descriptor_of_eval crowdedDocument
      (f := fun d => ((ConfigEntry.ofDescriptors d.configs).toOption.isSome,
        (ServiceTables.ofDescriptor d).toOption.isSome, Step.ofDescriptor d,
        d.declares .service "web"))
      (v := some "v1") (b := (true, true, [data, logs], true)) (by decide +kernel)
    simp only [Prod.mk.injEq, Option.isSome_iff_exists] at hf
    obtain ⟨⟨_, hc⟩, ⟨_, ht⟩, hsteps, hweb⟩ := hf
    have hasks : ∀ s, Asks d s ↔ s = data ∨ s = logs := by
      simp [← Step.mem_ofDescriptor, hsteps]
    have honly : OnlyClashes d := by
      constructor
      · exact ConfigEntry.all_pass (eq_ok_of_toOption hc)
      · intro id e
        have hservices := (ServiceTables.of_ofDescriptor (eq_ok_of_toOption ht)).1
        exact Service.all_pass hservices id .ports e
      · intro s hs
        rcases (hasks s).1 hs with rfl | rfl <;> exact hweb
    have hclash : Clash d :=
      .references ((hasks data).2 (.inl rfl)) ((hasks logs).2 (.inr rfl)) rfl (by decide)
    obtain ⟨e, he, hcategory⟩ := (compile_places crowdedDocument).2 d hd hclash
    exact ⟨e, he, hcategory hv honly⟩

theorem exists_shared_place :
    ∃ m web, compile overlaidDocument = .ok m ∧ m.services.get? "web" = some web ∧
      "/data" ∈ web.bindMounts.keys ∧ "/data" ∈ web.volumes.keys := by
  obtain ⟨m, hm, hf⟩ := compile_overlaid
  obtain ⟨web, hweb, hf⟩ := Option.map_eq_some_iff.1 hf
  simp only [Prod.mk.injEq] at hf
  exact ⟨m, web, hm, hweb, by simp [hf.1], by simp [hf.2]⟩

end ModuleCompiler
