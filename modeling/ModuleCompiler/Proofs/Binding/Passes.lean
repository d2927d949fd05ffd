import Mathlib.Logic.Relation
import ModuleCompiler.Module.Resolution

/-!
Passes over an arena made of a map. Whatever their work does to services, and wherever it stops, a
handle that is found has the slot of its service, no service is lost or takes the place of another,
and one that no pass targets stays as it was.
-/

namespace ModuleCompiler.Module

/-- Work of any kind on the services that targets list. -/
structure Pass (σ : Type) where
  τ : Type
  [lists : Targets τ]
  family : Family
  targets : List τ
  work : τ → String → σ → σ × Option GenerateError

namespace Pass

attribute [instance] lists

def run (p : Pass σ) (a : Arena σ) : Arena σ × Option Stop :=
  a.forEachTarget p.family p.targets p.work

def ids (p : Pass σ) (kind : ServiceKind) : List String := p.targets.flatMap (Targets.ids · kind)

/-- One of the targets lists the id, and the work for it makes one service of the other. -/
def Changes (p : Pass σ) (kind : ServiceKind) (id : String) (s s' : σ) : Prop :=
  ∃ t ∈ p.targets, id ∈ Targets.ids t kind ∧ (p.work t id s).1 = s'

theorem Changes.mem_ids {p : Pass σ} {kind : ServiceKind} {id : String} {s s' : σ}
    (h : p.Changes kind id s s') : id ∈ p.ids kind := by
  obtain ⟨t, ht, hid, -⟩ := h
  exact List.mem_flatMap.2 ⟨t, ht, hid⟩

end Pass

/-- The arena after some passes. One that stops does not keep the next from being made. -/
def Arena.afterPasses (a : Arena σ) (ps : List (Pass σ)) : Arena σ :=
  ps.foldl (fun a p => (p.run a).1) a

/-- Services of one map come from those of the other with the same ids. -/
structure Evolves (R : String → σ → σ → Prop) (m m' : SortedMap σ) : Prop where
  keys_eq : m'.keys = m.keys
  origin : ∀ id s', m'.get? id = some s' →
    ∃ s, m.get? id = some s ∧ Relation.ReflTransGen (R id) s s'

namespace Evolves

variable {R : String → σ → σ → Prop} {m m' m'' : SortedMap σ} {id : String} {s s' : σ}

theorem refl (m : SortedMap σ) : Evolves R m m := ⟨rfl, fun _ s hs => ⟨s, hs, .refl⟩⟩

theorem trans (h : Evolves R m m') (h' : Evolves R m' m'') : Evolves R m m'' := by
  refine ⟨h'.keys_eq.trans h.keys_eq, fun id s'' hs'' => ?_⟩
  obtain ⟨s', hs', hlast⟩ := h'.origin id s'' hs''
  obtain ⟨s, hs, hfirst⟩ := h.origin id s' hs'
  exact ⟨s, hs, hfirst.trans hlast⟩

theorem insert (hs : m.get? id = some s) (hR : R id s s') : Evolves R m (m.insert id s') := by
  obtain ⟨h, hentry⟩ := SortedMap.exists_getElem?_of_get? hs
  refine ⟨SortedMap.keys_insert hentry s', fun id' t ht => ?_⟩
  rw [SortedMap.get?_insert] at ht
  by_cases hid : id' = id
  · subst hid
    obtain rfl : s' = t := by simpa using ht
    exact ⟨s, hs, .single hR⟩
  · rw [if_neg hid] at ht
    exact ⟨t, ht, .refl⟩

theorem get?_eq_of_forall_not (h : Evolves R m m') (hR : ∀ s s', ¬ R id s s') :
    m'.get? id = m.get? id := by
  cases hs' : m'.get? id with
  | none =>
    have hkey : id ∉ m'.keys := by simp [SortedMap.mem_keys, hs']
    cases hs : m.get? id with
    | none => rfl
    | some s => exact absurd (SortedMap.mem_keys_of_eq h.keys_eq hs) hkey
  | some s' =>
    obtain ⟨s, hs, hpath⟩ := h.origin id s' hs'
    obtain rfl := (Relation.reflTransGen_iff_eq (hR s)).1 hpath
    exact hs.symm

end Evolves

namespace Arena

section Keeping

variable {kind : ServiceKind} {R : String → σ → σ → Prop}

/-- An arena of a map ends as one of a map that evolved, and no handle is without a slot. -/
def Keeps (kind : ServiceKind) (R : String → σ → σ → Prop)
    (f : Arena σ → Arena σ × Option Stop) : Prop :=
  ∀ m, ∃ m', Evolves R m m' ∧ (f (ofMap kind m)).1 = ofMap kind m' ∧
    (f (ofMap kind m)).2 ≠ some .outOfBounds

theorem keeps_visit (family : Family) {id : String} {work : σ → σ × Option GenerateError}
    (hwork : ∀ s, R id s (work s).1) : Keeps kind R (·.visit family id work) := by
  intro m
  cases hs : m.get? id with
  | none =>
    simp only [visit_ofMap_of_none hs]
    exact ⟨m, .refl m, rfl, nofun⟩
  | some s =>
    simp only [visit_ofMap hs]
    refine ⟨_, .insert hs (hwork s), rfl, ?_⟩
    cases (work s).2 <;> nofun

theorem keeps_sweep {f : Arena σ → β → Arena σ × Option Stop} {bs : List β}
    (hf : ∀ b ∈ bs, Keeps kind R (f · b)) : Keeps kind R (sweep f · bs) := by
  induction bs with
  | nil => exact fun m => ⟨m, .refl m, rfl, nofun⟩
  | cons b bs ih =>
    intro m
    obtain ⟨m₁, hfirst, harena, hstop⟩ := hf b List.mem_cons_self m
    have hrest := ih (fun b hb => hf b (List.mem_cons_of_mem _ hb)) m₁
    rcases hpass : f (ofMap kind m) b with ⟨a, stop⟩
    simp only [hpass] at harena hstop
    subst harena
    simp only [sweep, hpass]
    cases stop with
    | none =>
      -- The arena is one of a map again, so the rest of the list finds what it needs.
      obtain ⟨m', hlast, hend⟩ := hrest
      exact ⟨m', hfirst.trans hlast, hend⟩
    | some e => exact ⟨m₁, hfirst, rfl, hstop⟩

theorem keeps_forEachTarget [Targets τ] (family : Family) {targets : List τ}
    {work : τ → String → σ → σ × Option GenerateError}
    (hwork : ∀ t ∈ targets, ∀ id ∈ Targets.ids t kind, ∀ s, R id s (work t id s).1) :
    Keeps kind R (·.forEachTarget family targets work) := by
  refine keeps_sweep fun t ht m => ?_
  simp only [kind_ofMap]
  exact keeps_sweep (fun id hid => keeps_visit family (hwork t ht id hid)) m

theorem keeps_run (p : Pass σ) (hR : ∀ id s s', p.Changes kind id s s' → R id s s') :
    Keeps kind R p.run :=
  keeps_forEachTarget p.family fun t ht id hid _ => hR id _ _ ⟨t, ht, hid, rfl⟩

theorem exists_afterPasses {ps : List (Pass σ)} (hps : ∀ p ∈ ps, Keeps kind R p.run)
    (m : SortedMap σ) : ∃ m', Evolves R m m' ∧ (ofMap kind m).afterPasses ps = ofMap kind m' := by
  induction ps generalizing m with
  | nil => exact ⟨m, .refl m, rfl⟩
  | cons p ps ih =>
    obtain ⟨m₁, hfirst, harena, -⟩ := hps p List.mem_cons_self m
    obtain ⟨m', hlast, hend⟩ := ih (fun p hp => hps p (List.mem_cons_of_mem _ hp)) m₁
    refine ⟨m', hfirst.trans hlast, ?_⟩
    rw [← hend, ← harena]
    rfl

end Keeping

theorem slot_of_handle_ofMap {kind : ServiceKind} {m : SortedMap σ} {family : Family} {id : String}
    {h : Nat} (hh : (ofMap kind m).handle family id = .ok h) :
    ∃ s, (ofMap kind m).slots[h]? = some s ∧ m.get? id = some s := by
  cases hs : m.get? id with
  | none =>
    rw [handle_ofMap_of_none hs] at hh
    cases hh
  | some s =>
    obtain ⟨h', hh', hentry⟩ := handle_ofMap hs kind family
    obtain rfl : h' = h := by simpa [hh'] using hh
    exact ⟨s, by simp [hentry], rfl⟩

/-- An arena of a map after passes over it, and what another pass comes to there. -/
theorem afterPasses_sound (kind : ServiceKind) (m : SortedMap σ) (ps : List (Pass σ)) :
    let a := (ofMap kind m).afterPasses ps
    a.Valid ∧
    (∀ family id h, a.handle family id = .ok h →
      ∃ s, a.slots[h]? = some s ∧ a.toMap.get? id = some s) ∧
    (∀ p : Pass σ, (p.run a).2 ≠ some .outOfBounds) ∧
    Evolves (fun id s s' => ∃ p ∈ ps, p.Changes kind id s s') m a.toMap ∧
    (∀ id, (∀ p ∈ ps, id ∉ p.ids kind) → a.toMap.get? id = m.get? id) := by
  have hkeeps : ∀ p ∈ ps, Keeps kind (fun id s s' => ∃ p ∈ ps, p.Changes kind id s s') p.run :=
    fun p hp => keeps_run p fun _ _ _ hchange => ⟨p, hp, hchange⟩
  obtain ⟨m', hevolves, hend⟩ := exists_afterPasses hkeeps m
  simp only [hend, toMap_ofMap]
  refine ⟨valid_ofMap kind m', fun _ _ _ hh => slot_of_handle_ofMap hh, fun p => ?_, hevolves,
    fun id hid => ?_⟩
  · -- What the pass does to services has no part in where its handles lead.
    obtain ⟨_, -, -, hstop⟩ := keeps_run (R := fun _ _ _ => True) p (fun _ _ _ _ => trivial) m'
    exact hstop
  · refine hevolves.get?_eq_of_forall_not fun s s' hchange => ?_
    obtain ⟨p, hp, hchange⟩ := hchange
    exact hid p hp hchange.mem_ids

end Arena

theorem sweep_related {f : α → β → α × Option ε} {S : α → α → Prop} (hrefl : ∀ a, S a a)
    (htrans : ∀ a b c, S a b → S b c → S a c) {bs : List β}
    (hf : ∀ b ∈ bs, ∀ a, S a (f a b).1) (a : α) : S a (sweep f a bs).1 := by
  induction bs generalizing a with
  | nil => exact hrefl a
  | cons b bs ih =>
    have hfirst := hf b List.mem_cons_self a
    have hrest := ih (fun b hb => hf b (List.mem_cons_of_mem _ hb))
    rcases hpass : f a b with ⟨a', _ | e⟩ <;> simp only [hpass] at hfirst <;>
      simp only [sweep, hpass]
    · exact htrans _ _ _ hfirst (hrest a')
    · exact hfirst

namespace Arena

/-- Some passes lead from one arena to the other. -/
def Leads (a a' : Arena σ) : Prop := ∃ ps, a.afterPasses ps = a'

theorem Leads.refl (a : Arena σ) : a.Leads a := ⟨[], rfl⟩

theorem Leads.trans {a b c : Arena σ} (h : a.Leads b) (h' : b.Leads c) : a.Leads c := by
  obtain ⟨ps, rfl⟩ := h
  obtain ⟨ps', rfl⟩ := h'
  exact ⟨ps ++ ps', List.foldl_append⟩

theorem leads_sweep {f : Arena σ → β → Arena σ × Option Stop} {bs : List β}
    (hf : ∀ b ∈ bs, ∀ a, Leads a (f a b).1) (a : Arena σ) : a.Leads (sweep f a bs).1 :=
  sweep_related Leads.refl (fun _ _ _ => Leads.trans) hf a

theorem leads_forEachTarget [Targets τ] (family : Family) (targets : List τ)
    (work : τ → String → σ → σ × Option GenerateError) (a : Arena σ) :
    a.Leads (a.forEachTarget family targets work).1 :=
  ⟨[⟨τ, family, targets, work⟩], rfl⟩

section Shared

variable [Sharer σ] (a : Arena σ)

theorem leads_bindServiceReferences (refs : SortedMap (List Descriptor.DependencyTarget)) :
    a.Leads (a.bindServiceReferences refs).1 :=
  leads_sweep (fun _ _ => leads_forEachTarget _ _ _) a

theorem leads_bindVolumes (volumes : SortedMap (List Descriptor.VolumeTarget)) :
    a.Leads (a.bindVolumes volumes).1 :=
  leads_sweep (fun _ _ => leads_forEachTarget _ _ _) a

theorem leads_bindDependencies (deps : SortedMap Descriptor.ModuleDependency) :
    a.Leads (a.bindDependencies deps).1 :=
  leads_sweep (fun _ _ => leads_sweep fun _ _ => leads_forEachTarget _ _ _) a

theorem leads_bindConfigs (configs : SortedMap Descriptor.ConfigValue) :
    a.Leads (a.bindConfigs configs).1 :=
  leads_sweep (fun _ _ => leads_forEachTarget _ _ _) a

end Shared

theorem leads_bindHostResources (resources : SortedMap Descriptor.HostResource)
    (a : Arena Service) : a.Leads (a.bindHostResources resources).1 :=
  leads_sweep (fun _ _ => leads_forEachTarget _ _ _) a

theorem leads_bindSecrets (secrets : SortedMap Descriptor.Secret) (a : Arena Service) :
    a.Leads (a.bindSecrets secrets).1 := by
  refine leads_sweep (fun _ _ => leads_sweep fun pass hpass => ?_) a
  simp only [List.mem_cons, List.not_mem_nil, or_false] at hpass
  rcases hpass with rfl | rfl <;> exact leads_forEachTarget _ _ _

end Arena

namespace Resolver

structure Leads (r r' : Resolver) : Prop where
  services : r.services.Leads r'.services
  auxServices : r.auxServices.Leads r'.auxServices

theorem Leads.refl (r : Resolver) : r.Leads r := ⟨.refl _, .refl _⟩

theorem Leads.trans {r r' r'' : Resolver} (h : r.Leads r') (h' : r'.Leads r'') : r.Leads r'' :=
  ⟨h.services.trans h'.services, h.auxServices.trans h'.auxServices⟩

theorem leads_onServices {pass : Arena Service → Arena Service × Option Stop}
    (hpass : ∀ a, Arena.Leads a (pass a).1) (r : Resolver) : r.Leads (onServices pass r).1 :=
  ⟨hpass r.services, .refl _⟩

theorem leads_onAuxServices {pass : Arena AuxService → Arena AuxService × Option Stop}
    (hpass : ∀ a, Arena.Leads a (pass a).1) (r : Resolver) : r.Leads (onAuxServices pass r).1 :=
  ⟨.refl _, hpass r.auxServices⟩

/-- What the resolver does to its arenas is passes over them. -/
theorem leads_resolve (d : Descriptor) (r : Resolver) : r.Leads (resolve d r).1 := by
  refine sweep_related Leads.refl (fun _ _ _ => Leads.trans) (fun pass hpass => ?_) r
  simp only [List.mem_cons, List.not_mem_nil, or_false] at hpass
  rcases hpass with rfl | rfl | rfl | rfl | rfl | rfl | rfl | rfl | rfl | rfl
  · exact leads_onServices fun a => a.leads_bindServiceReferences d.serviceReferences
  · exact leads_onAuxServices fun a => a.leads_bindServiceReferences d.serviceReferences
  · exact leads_onServices fun a => a.leads_bindVolumes d.volumes
  · exact leads_onAuxServices fun a => a.leads_bindVolumes d.volumes
  · exact leads_onServices fun a => a.leads_bindDependencies d.dependencies
  · exact leads_onAuxServices fun a => a.leads_bindDependencies d.dependencies
  · exact leads_onServices (Arena.leads_bindHostResources d.hostResources)
  · exact leads_onServices (Arena.leads_bindSecrets d.secrets)
  · exact leads_onServices fun a => a.leads_bindConfigs d.configs
  · exact leads_onAuxServices fun a => a.leads_bindConfigs d.configs

end Resolver

end ModuleCompiler.Module
