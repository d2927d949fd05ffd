import ModuleCompiler.Proofs.Compilation
import ModuleCompiler.Proofs.Binding.Resolution

/-!
What one service says of itself stays with it. Binding reads the ids of services and not their own
sections, so another section changes the module in the own fields of this service and nowhere else.
-/

namespace ModuleCompiler.Module

section Tables

/-- A service with the own fields of another one. Its references are kept. -/
def Service.withOwn (s own : Service) : Service :=
  { s with
    name := own.name
    image := own.image
    runConfig := own.runConfig
    bindMounts := own.bindMounts
    tmpfs := own.tmpfs
    httpEndpoints := own.httpEndpoints
    ports := own.ports
    requiredServices := own.requiredServices }

theorem Service.bare_withOwn (s own : Service) : (s.withOwn own).bare = own.bare := rfl

theorem Service.binding?_withOwn (s own : Service) (f : Family) (k : String) :
    (s.withOwn own).binding? f k = s.binding? f k := by
  cases f <;> rfl

def ServiceTables.setService (t : ServiceTables) (id : String) (s : Service) : ServiceTables :=
  { t with services := t.services.insert id s }

variable {t t' : ServiceTables} {id : String} {old own : Service} {ss : List Step}

theorem ServiceTables.bare_setService (t : ServiceTables) (id : String) (s : Service) :
    (t.setService id s).bare = t.bare.setService id s.bare := by
  simp only [bare, setService, SortedMap.map_insert]
  rfl

theorem ServiceTables.declares_setService {old s : Service} (h : t.services.get? id = some old)
    (kind : ServiceKind) (target : String) :
    (t.setService id s).declares kind target = t.declares kind target := by
  cases kind with
  | service =>
    by_cases ht : target = id
    · subst ht
      simp [declares, setService, SortedMap.contains, SortedMap.get?_insert, h]
    · simp [declares, setService, SortedMap.contains, SortedMap.get?_insert, ht]
  | auxService => rfl

/-- References see the bindings of a service, and its own fields have none. -/
theorem ServiceTables.binding?_setService (h : t.services.get? id = some old) (slot : Slot) :
    (t.setService id (old.withOwn own)).binding? slot = t.binding? slot := by
  obtain ⟨kind, target, family, key⟩ := slot
  cases kind with
  | service =>
    by_cases ht : target = id
    · subst ht
      simp only [binding?, setService, bindingIn?, SortedMap.get?_insert, h, if_true,
        Option.bind_some]
      exact Service.binding?_withOwn old own family key
    · simp only [binding?, setService, bindingIn?, SortedMap.get?_insert, if_neg ht]
  | auxService => rfl

/-- A run over tables without bindings goes the same way when a service has another section. -/
theorem ServiceTables.run_setService {blank : Service} (ht : t.bare = t)
    (hid : t.services.get? id = some blank) (hown : own.bare = own)
    (hr : t.run ss = (t', none)) (hold : t'.services.get? id = some old) :
    (t.setService id own).run ss = (t'.setService id (old.withOwn own), none) := by
  obtain ⟨hadmits, hresult⟩ := run_eq_ok_iff.1 hr
  have hbare : (t.setService id own).bare = t.setService id own := by
    rw [bare_setService, ht, hown]
  -- no slot is filled beforehand, so whether the steps go through is a matter of their targets
  refine run_eq_ok_iff.2 ⟨?_, ?_, fun slot b => ?_⟩
  · rw [admits_iff_of_bare ht] at hadmits
    rw [admits_iff_of_bare hbare]
    simpa only [declares_setService hid] using hadmits
  · rw [hbare, bare_setService, hresult.bare, ht, Service.bare_withOwn, hown]
  · have hnone : t.binding? slot = none := ht ▸ t.binding?_bare slot
    have hnone' : (t.setService id own).binding? slot = none :=
      hbare ▸ (t.setService id own).binding?_bare slot
    rw [binding?_setService hold, hresult.binding?, hnone, hnone']

end Tables

section Descriptors

/-- Descriptors that differ in the section of one service and in nothing else. -/
structure DifferAt (id : String) (d d' : Descriptor) : Prop where
  rest : { d' with services := d.services } = d
  keys : d'.services.keys = d.services.keys
  others : ∀ id', id' ≠ id → d'.services.get? id' = d.services.get? id'

variable {id : String} {d d' : Descriptor} {body : Descriptor.Service} {own : Service}

theorem DifferAt.eq_insert (h : DifferAt id d d') (hbody : d'.services.get? id = some body) :
    d' = { d with services := d.services.insert id body } := by
  have hservices : d'.services = d.services.insert id body := by
    apply SortedMap.ext_get?
    intro id'
    rw [SortedMap.get?_insert]
    by_cases hid : id' = id
    · rw [if_pos hid, hid, hbody]
    · rw [if_neg hid, h.others id' hid]
  rw [← h.rest, ← hservices]

theorem ServiceTables.ofDescriptor_insert {t : ServiceTables}
    (ht : ServiceTables.ofDescriptor d = .ok t) (hown : Service.ofDescriptor id body = .ok own) :
    ServiceTables.ofDescriptor { d with services := d.services.insert id body } =
      .ok (t.setService id own) := by
  obtain ⟨hs, ha⟩ := of_ofDescriptor ht
  have hs' : Service.ofDescriptors (d.services.insert id body) = .ok (t.services.insert id own) :=
    SortedMap.traverse_insert hs hown
  simp only [ofDescriptor, hs', ha]
  rfl

/-- Another section for one service, if it is sound, gives another module in the own fields of that
service only. -/
theorem ofDescriptor_local {m : Module} (hd : DifferAt id d d') (hm : Module.ofDescriptor d = .ok m)
    (hbody : d'.services.get? id = some body) (hown : Service.ofDescriptor id body = .ok own) :
    ∃ old, m.services.get? id = some old ∧
      Module.ofDescriptor d' =
        .ok { m with services := m.services.insert id (old.withOwn own) } := by
  obtain ⟨configs, t, t', hc, ht, hr, rfl⟩ := eq_assemble_of_ofDescriptor hm
  have hrun := resolve_eq_ok_iff.1 hr
  have hdeclared : id ∈ d.services.keys := hd.keys ▸ SortedMap.mem_keys.2 ⟨body, hbody⟩
  have hkeys := (ServiceTables.keys_ofDescriptor ht).1
  have hkeys' := (ServiceTables.run_eq_ok_iff.1 hrun).2.keys.1
  obtain ⟨blank, hblank⟩ := SortedMap.mem_keys.1 (hkeys ▸ hdeclared)
  obtain ⟨old, hold⟩ := SortedMap.mem_keys.1 (hkeys' ▸ hkeys ▸ hdeclared)
  have hrun' := ServiceTables.run_setService (ServiceTables.bare_ofDescriptor ht) hblank
    (Service.bare_ofDescriptor hown) hrun hold
  have ht' := ServiceTables.ofDescriptor_insert ht hown
  have hr' : resolve (t.setService id own) { d with services := d.services.insert id body } =
      .ok (t'.setService id (old.withOwn own)) := resolve_eq_ok_iff.2 hrun'
  refine ⟨old, hold, ?_⟩
  rw [hd.eq_insert hbody]
  simp only [Module.ofDescriptor, bind_eq_ok_iff, pure_eq_ok_iff]
  exact ⟨configs, hc, _, ht', _, hr', rfl⟩

/-- The database of the shop with an image and a port. -/
def databaseSection : Descriptor.Service where
  name := "Database"
  image := "postgres"
  ports := [{ port := ⟨"5432"⟩, protocol := some "tcp" }]

def editedShop : Descriptor :=
  { shop with services := shop.services.insert "db" databaseSection }

theorem ofDescriptor_local_shop :
    DifferAt "db" shop editedShop ∧ ∃ m m', Module.ofDescriptor shop = .ok m ∧
      Module.ofDescriptor editedShop = .ok m' ∧ m'.services.get? "web" = m.services.get? "web" ∧
      ∃ db, m'.services.get? "db" = some db ∧ db.image = "postgres" ∧
        db.binding? .volume "/data" = some (.shared (.volume "data")) := by
  have hd : DifferAt "db" shop editedShop := by
    refine ⟨rfl, by decide, fun id hid => ?_⟩
    rw [editedShop, SortedMap.get?_insert, if_neg hid]
  have hbody : editedShop.services.get? "db" = some databaseSection := by
    rw [editedShop, SortedMap.get?_insert, if_pos rfl]
  obtain ⟨m, hm⟩ : ∃ m, Module.ofDescriptor shop = .ok m := ⟨_, rfl⟩
  obtain ⟨own, hown, himage⟩ : ∃ own, Service.ofDescriptor "db" databaseSection = .ok own ∧
      own.image = "postgres" := ⟨_, rfl, rfl⟩
  obtain ⟨old, hold, hm'⟩ := ofDescriptor_local hd hm hbody hown
  have hvolume : ∀ db, m.services.get? "db" = some db →
      db.binding? .volume "/data" = some (.shared (.volume "data")) := by
    cases hm
    intro db hdb
    cases hdb
    rfl
  refine ⟨hd, m, _, hm, hm', ?_, old.withOwn own, ?_, himage, ?_⟩
  · exact (SortedMap.get?_insert ..).trans (if_neg (by decide))
  · exact (SortedMap.get?_insert ..).trans (if_pos rfl)
  · rw [Service.binding?_withOwn, hvolume old hold]

end Descriptors

end ModuleCompiler.Module
