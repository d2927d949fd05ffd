import ModuleCompiler.Module.Resolver

/-!
Resolution of the references of a descriptor. The passes over its services leave what the steps of
the descriptor leave and are stopped by the fault that stops these, so no handle is without a slot.
-/

namespace ModuleCompiler.Module

namespace Step

def ofShared (kind : ServiceKind) (id key : String) (b : SharedBinding) : Step :=
  match kind with
  | .service => .service id key (.shared b)
  | .auxService => .auxService id key b

theorem onKind_eq [Targets τ] (t : τ) (kind : ServiceKind) (key : String) (b : SharedBinding) :
    onKind kind (Targets.services t) (Targets.auxServices t) key b =
      (Targets.ids t kind).flatMap fun id => [ofShared kind id key b] := by
  rw [← List.map_eq_flatMap]
  cases kind <;> rfl

theorem bindAt_eq (t : Descriptor.SecretTarget) (key : Option String) (b : Binding) :
    ofSecrets.bindAt t key b =
      (Targets.ids t .service).flatMap fun id => key.toList.map (.service id · b) := by
  cases key with
  | none =>
    symm
    exact List.flatMap_eq_nil_iff.2 fun _ _ => rfl
  | some key => exact List.map_eq_flatMap

theorem flatMap_filter {p : α → Bool} {steps : α → List Step}
    (hsteps : ∀ a, p a = false → steps a = []) (l : List α) :
    (l.filter p).flatMap steps = l.flatMap steps := by
  induction l with
  | nil => rfl
  | cons a l ih =>
    cases ha : p a with
    | false =>
      rw [List.filter_cons_of_neg (by simp [ha]), List.flatMap_cons, hsteps a ha, ih]
      rfl
    | true => rw [List.filter_cons_of_pos ha, List.flatMap_cons, List.flatMap_cons, ih]

end Step

namespace ServiceTables

theorem run_append (t : ServiceTables) (ss ss' : List Step) :
    t.run (ss ++ ss') =
      match t.run ss with
      | (t', none) => t'.run ss'
      | (t', some e) => (t', some e) := by
  induction ss generalizing t with
  | nil => rfl
  | cons s ss ih =>
    cases hs : t.apply s with
    | error e => simp only [List.cons_append, run, hs]
    | ok t' => simp only [List.cons_append, run, hs, ih]

theorem run_singleton (t : ServiceTables) (s : Step) : t.run [s] = attempt (·.apply s) t := by
  cases hs : t.apply s <;> simp only [run, attempt, hs]

end ServiceTables

/-- A pass does what steps do: it ends in a state that stands for their tables, with their fault. -/
def Follows (R : α → ServiceTables → Prop) (pass : α → α × Option Stop) (ss : List Step) : Prop :=
  ∀ a t, R a t → R (pass a).1 (t.run ss).1 ∧ (pass a).2 = (t.run ss).2.map .failed

section Sweeps

variable {R : α → ServiceTables → Prop} {f : α → β → α × Option Stop}

theorem follows_sweep_nil : Follows R (sweep f · []) [] := fun _ _ ha => ⟨ha, rfl⟩

theorem Follows.sweep_cons {b : β} {bs : List β} {ss ss' : List Step} (hb : Follows R (f · b) ss)
    (hbs : Follows R (sweep f · bs) ss') : Follows R (sweep f · (b :: bs)) (ss ++ ss') := by
  intro a t ha
  have hfirst : R (f a b).1 (t.run ss).1 ∧ (f a b).2 = (t.run ss).2.map .failed := hb a t ha
  simp only [ServiceTables.run_append, sweep]
  rcases hpass : f a b with ⟨a', stop⟩
  rcases hrun : t.run ss with ⟨t', fault⟩
  rw [hpass, hrun] at hfirst
  obtain ⟨ha', hstop⟩ := hfirst
  -- The steps have a fault where the pass is stopped, and then neither goes on.
  cases fault with
  | none =>
    obtain rfl : stop = none := hstop
    exact hbs a' t' ha'
  | some e =>
    obtain rfl : stop = some (.failed e) := hstop
    exact ⟨ha', rfl⟩

theorem follows_sweep {steps : β → List Step} {bs : List β}
    (hf : ∀ b ∈ bs, Follows R (f · b) (steps b)) :
    Follows R (sweep f · bs) (bs.flatMap steps) := by
  induction bs with
  | nil => exact follows_sweep_nil
  | cons b bs ih =>
    have hbs := ih fun b hb => hf b (List.mem_cons_of_mem _ hb)
    exact (hf b List.mem_cons_self).sweep_cons hbs

theorem follows_inTurn_nil : Follows R (inTurn []) [] := follows_sweep_nil

theorem Follows.inTurn_cons {pass : α → α × Option Stop} {passes : List (α → α × Option Stop)}
    {ss ss' : List Step} (hpass : Follows R pass ss) (hpasses : Follows R (inTurn passes) ss') :
    Follows R (inTurn (pass :: passes)) (ss ++ ss') :=
  Follows.sweep_cons (f := fun (a : α) (pass : α → α × Option Stop) => pass a) hpass hpasses

end Sweeps

namespace Arena

/-- An attempt on one service of an arena is an attempt on the entry of the map. -/
theorem visit_attempt (kind : ServiceKind) (m : SortedMap σ) (family : Family) (id : String)
    (f : σ → Except GenerateError σ) :
    (ofMap kind m).visit family id (attempt f) =
      match updateEntry m id (.undefinedTarget family kind id) f with
      | .error e => (ofMap kind m, some (.failed e))
      | .ok m' => (ofMap kind m', none) := by
  cases hs : m.get? id with
  | none => simp only [visit_ofMap_of_none hs, updateEntry, hs]
  | some s =>
    rw [visit_ofMap hs]
    cases hf : f s with
    | error e =>
      simp only [attempt, updateEntry, hs, hf, SortedMap.insert_of_get? hs]
      rfl
    | ok s' =>
      simp only [attempt, updateEntry, hs, hf]
      rfl

/-- The arena is that of some of the entries of tables, while the rest of them is as told. -/
structure StandsFor (kind : ServiceKind) (entries : ServiceTables → SortedMap σ)
    (rest : ServiceTables → Prop) (a : Arena σ) (t : ServiceTables) : Prop where
  arena_eq : a = ofMap kind (entries t)
  rest : rest t

theorem StandsFor.kind_eq {kind : ServiceKind} {entries : ServiceTables → SortedMap σ}
    {rest : ServiceTables → Prop} {a : Arena σ} {t : ServiceTables}
    (h : StandsFor kind entries rest a t) : a.kind = kind := by
  rw [h.arena_eq, kind_ofMap]

/-- A step that attempts something on one of the entries is the same attempt on their arena. -/
theorem follows_attempt {entries : ServiceTables → SortedMap σ} {rest : ServiceTables → Prop}
    (put : ServiceTables → SortedMap σ → ServiceTables)
    {kind : ServiceKind} {family : Family} {id : String} {f : σ → Except GenerateError σ}
    {s : Step} (hput : ∀ t m, entries (put t m) = m) (hrest : ∀ t m, rest t → rest (put t m))
    (hs : ∀ t, t.apply s =
      (updateEntry (entries t) id (.undefinedTarget family kind id) f).map (put t)) :
    Follows (StandsFor kind entries rest) (·.visit family id (attempt f)) [s] := by
  rintro _ t ⟨rfl, ht⟩
  simp only [visit_attempt, ServiceTables.run_singleton, attempt, hs]
  cases updateEntry (entries t) id (.undefinedTarget family kind id) f with
  | error e => exact ⟨⟨rfl, ht⟩, rfl⟩
  | ok m => exact ⟨⟨congrArg (ofMap kind) (hput t m).symm, hrest t m ht⟩, rfl⟩

/-- Arenas that stand for the services of one kind, and bind what is shared as steps bind it. -/
structure Tracks [Sharer σ] (kind : ServiceKind) (R : Arena σ → ServiceTables → Prop) : Prop where
  kind_eq : ∀ a t, R a t → a.kind = kind
  share : ∀ id key b, Follows R (·.visit b.family id (Sharer.share id key b))
    [.ofShared kind id key b]

theorem follows_forEachTarget {R : Arena σ → ServiceTables → Prop} {kind : ServiceKind} [Targets τ]
    {family : Family} {targets : List τ} {work : τ → String → σ → σ × Option GenerateError}
    {steps : τ → String → List Step} (hkind : ∀ a t, R a t → a.kind = kind)
    (hwork : ∀ u ∈ targets, ∀ id, Follows R (·.visit family id (work u id)) (steps u id)) :
    Follows R (·.forEachTarget family targets work)
      (targets.flatMap fun u => (Targets.ids u kind).flatMap (steps u)) := by
  refine follows_sweep fun u hu a t ha => ?_
  simp only [hkind a t ha]
  exact follows_sweep (fun id _ => hwork u hu id) a t ha

section Shared

variable [Sharer σ] {R : Arena σ → ServiceTables → Prop} {kind : ServiceKind}
  (hR : Tracks kind R)

include hR

theorem Tracks.forEachTarget [Targets τ] (targets : List τ) (key : τ → String)
    (b : τ → SharedBinding) {family : Family} (hb : ∀ u, (b u).family = family) :
    Follows R (·.forEachTarget family targets fun u id => Sharer.share id (key u) (b u))
      (targets.flatMap fun u =>
        Step.onKind kind (Targets.services u) (Targets.auxServices u) (key u) (b u)) := by
  simp only [Step.onKind_eq]
  refine follows_forEachTarget hR.kind_eq fun u _ id => ?_
  rw [← hb u]
  exact hR.share id (key u) (b u)

theorem Tracks.bindServiceReferences (refs : SortedMap (List Descriptor.DependencyTarget)) :
    Follows R (bindServiceReferences refs) (Step.ofServiceReferences refs kind) :=
  follows_sweep fun e _ => hR.forEachTarget e.2 (·.refVar)
    (fun u => .serviceReference ⟨e.1, u.template⟩) fun _ => rfl

theorem Tracks.bindVolumes (volumes : SortedMap (List Descriptor.VolumeTarget)) :
    Follows R (bindVolumes volumes) (Step.ofVolumes volumes kind) :=
  follows_sweep fun e _ => hR.forEachTarget e.2 (·.mountPoint) (fun _ => .volume e.1) fun _ => rfl

theorem Tracks.bindDependencies (deps : SortedMap Descriptor.ModuleDependency) :
    Follows R (bindDependencies deps) (Step.ofDependencies deps kind) :=
  follows_sweep fun d _ => follows_sweep fun e _ => hR.forEachTarget e.2 (·.refVar)
    (fun u => .dependency ⟨d.1, e.1, u.template⟩) fun _ => rfl

theorem Tracks.bindConfigs (configs : SortedMap Descriptor.ConfigValue) :
    Follows R (bindConfigs configs) (Step.ofConfigs configs kind) :=
  follows_sweep fun e _ => hR.forEachTarget e.2.targets (·.refVar) (fun _ => .config e.1)
    fun _ => rfl

end Shared

section Services

def IsServices (auxServices : SortedMap AuxService) : Arena Service → ServiceTables → Prop :=
  StandsFor .service (·.services) (·.auxServices = auxServices)

variable (auxServices : SortedMap AuxService)

theorem follows_bind (id key : String) (b : Binding) :
    Follows (IsServices auxServices) (·.visit b.family id (Service.bind id key b))
      [.service id key b] :=
  follows_attempt (fun t m => { t with services := m }) (fun _ _ => rfl) (fun _ _ ht => ht)
    fun _ => rfl

theorem tracks_services : Tracks .service (IsServices auxServices) where
  kind_eq _ _ := StandsFor.kind_eq
  share id key b := follows_bind auxServices id key (.shared b)

theorem follows_bindHostResources (resources : SortedMap Descriptor.HostResource) :
    Follows (IsServices auxServices) (bindHostResources resources)
      (Step.ofHostResources resources) := by
  refine follows_sweep fun e _ => ?_
  simp only [Step.onServices, List.map_eq_flatMap]
  exact follows_forEachTarget (fun _ _ => StandsFor.kind_eq) fun u _ id =>
    follows_bind auxServices id u.mountPoint (.hostResource ⟨e.1, u.readOnly⟩)

theorem follows_bindSecret {family : Family} (key? : Descriptor.SecretTarget → Option String)
    (binding : SecretReference → Binding) (hfamily : ∀ r, (binding r).family = family)
    (name : String) (secret : Descriptor.Secret) :
    Follows (IsServices auxServices) (bindSecret family key? binding name secret)
      (secret.targets.flatMap fun u =>
        Step.ofSecrets.bindAt u (key? u) (binding ⟨name, u.item⟩)) := by
  have hunkeyed : ∀ u, (key? u).isSome = false →
      Step.ofSecrets.bindAt u (key? u) (binding ⟨name, u.item⟩) = [] := by
    intro u hu
    rw [Option.not_isSome_iff_eq_none.1 (Bool.eq_false_iff.1 hu), Step.ofSecrets.bindAt]
  rw [← Step.flatMap_filter hunkeyed]
  simp only [Step.bindAt_eq]
  refine follows_forEachTarget (fun _ _ => StandsFor.kind_eq) fun u hu id => ?_
  obtain ⟨key, hkey⟩ := Option.isSome_iff_exists.1 (List.mem_filter.1 hu).2
  simp only [hkey, ← hfamily ⟨name, u.item⟩]
  exact follows_bind auxServices id key (binding ⟨name, u.item⟩)

theorem follows_bindSecrets (secrets : SortedMap Descriptor.Secret) :
    Follows (IsServices auxServices) (bindSecrets secrets) (Step.ofSecrets secrets) := by
  refine follows_sweep fun e _ => ?_
  have hmounts := follows_bindSecret auxServices (·.mountPoint) .secretMount (fun _ => rfl) e.1 e.2
  have hvariables :=
    follows_bindSecret auxServices (·.refVar) .secretVariable (fun _ => rfl) e.1 e.2
  have hboth := hmounts.inTurn_cons (hvariables.inTurn_cons follows_inTurn_nil)
  rw [List.append_nil] at hboth
  exact hboth

end Services

section AuxServices

def IsAuxServices (services : SortedMap Service) : Arena AuxService → ServiceTables → Prop :=
  StandsFor .auxService (·.auxServices) (·.services = services)

theorem tracks_auxServices (services : SortedMap Service) :
    Tracks .auxService (IsAuxServices services) where
  kind_eq _ _ := StandsFor.kind_eq
  share _ _ _ := follows_attempt (fun t m => { t with auxServices := m }) (fun _ _ => rfl)
    (fun _ _ ht => ht) fun _ => rfl

end AuxServices

end Arena

namespace Resolver

def Stands (r : Resolver) (t : ServiceTables) : Prop := r = ofTables t

theorem follows_onServices {pass : Arena Service → Arena Service × Option Stop} {ss : List Step}
    (h : ∀ auxServices, Follows (Arena.IsServices auxServices) pass ss) :
    Follows Stands (onServices pass) ss := by
  rintro _ t rfl
  obtain ⟨⟨hservices, hrest⟩, hstop⟩ := h t.auxServices _ t ⟨rfl, rfl⟩
  refine ⟨?_, hstop⟩
  simp only [Stands, onServices, ofTables, hservices, hrest]

theorem follows_onAuxServices {pass : Arena AuxService → Arena AuxService × Option Stop}
    {ss : List Step} (h : ∀ services, Follows (Arena.IsAuxServices services) pass ss) :
    Follows Stands (onAuxServices pass) ss := by
  rintro _ t rfl
  obtain ⟨⟨hauxServices, hrest⟩, hstop⟩ := h t.services _ t ⟨rfl, rfl⟩
  refine ⟨?_, hstop⟩
  simp only [Stands, onAuxServices, ofTables, hauxServices, hrest]

theorem follows_both {passes : List (Resolver → Resolver × Option Stop)}
    {pass : Arena Service → Arena Service × Option Stop}
    {auxPass : Arena AuxService → Arena AuxService × Option Stop}
    {steps : ServiceKind → List Step} {ss : List Step}
    (hpass : ∀ auxServices, Follows (Arena.IsServices auxServices) pass (steps .service))
    (hauxPass : ∀ services, Follows (Arena.IsAuxServices services) auxPass (steps .auxService))
    (hpasses : Follows Stands (inTurn passes) ss) :
    Follows Stands (inTurn (onServices pass :: onAuxServices auxPass :: passes))
      (Step.bothKinds steps ++ ss) := by
  have hauxPasses := (follows_onAuxServices hauxPass).inTurn_cons hpasses
  rw [Step.bothKinds, List.append_assoc]
  exact (follows_onServices hpass).inTurn_cons hauxPasses

theorem follows_resolve (d : Descriptor) : Follows Stands (resolve d) (Step.ofDescriptor d) := by
  have hconfigs := follows_both (fun x => (Arena.tracks_services x).bindConfigs d.configs)
    (fun x => (Arena.tracks_auxServices x).bindConfigs d.configs) follows_inTurn_nil
  have hsecrets := (follows_onServices (Arena.follows_bindSecrets · d.secrets)).inTurn_cons hconfigs
  have hresources :=
    (follows_onServices (Arena.follows_bindHostResources · d.hostResources)).inTurn_cons hsecrets
  have hdependencies := follows_both
    (fun x => (Arena.tracks_services x).bindDependencies d.dependencies)
    (fun x => (Arena.tracks_auxServices x).bindDependencies d.dependencies) hresources
  have hvolumes := follows_both (fun x => (Arena.tracks_services x).bindVolumes d.volumes)
    (fun x => (Arena.tracks_auxServices x).bindVolumes d.volumes) hdependencies
  have hreferences := follows_both
    (fun x => (Arena.tracks_services x).bindServiceReferences d.serviceReferences)
    (fun x => (Arena.tracks_auxServices x).bindServiceReferences d.serviceReferences) hvolumes
  simpa only [resolve, Step.ofDescriptor, List.append_assoc, List.append_nil] using hreferences

theorem resolve_ofTables (d : Descriptor) (t : ServiceTables) :
    resolve d (ofTables t) =
      (ofTables (t.run (Step.ofDescriptor d)).1, (t.run (Step.ofDescriptor d)).2.map .failed) := by
  obtain ⟨hstands, hstop⟩ := follows_resolve d (ofTables t) t rfl
  exact Prod.ext hstands hstop

@[simp] theorem toTables_ofTables (t : ServiceTables) : (ofTables t).toTables = t := by
  simp only [ofTables, toTables, Arena.toMap_ofMap]

end Resolver

theorem resolve_ne_outOfBounds (t : ServiceTables) (d : Descriptor) :
    ((Resolver.ofTables t).resolve d).2 ≠ some .outOfBounds := by
  rw [Resolver.resolve_ofTables]
  cases (t.run (Step.ofDescriptor d)).2 <;> nofun

def resolve (t : ServiceTables) (d : Descriptor) : Except GenerateError ServiceTables :=
  match hstop : (Resolver.ofTables t).resolve d with
  | (r, none) => .ok r.toTables
  | (_, some (.failed e)) => .error e
  | (_, some .outOfBounds) => absurd (congrArg Prod.snd hstop) (resolve_ne_outOfBounds t d)

/-- Services with what a descriptor binds to them are the tables after the last of its steps. -/
theorem resolve_eq (t : ServiceTables) (d : Descriptor) :
    resolve t d =
      match t.run (Step.ofDescriptor d) with
      | (t', none) => .ok t'
      | (_, some e) => .error e := by
  have hresolve := Resolver.resolve_ofTables d t
  rcases hrun : t.run (Step.ofDescriptor d) with ⟨t', _ | e⟩ <;> rw [hrun] at hresolve <;>
    unfold resolve
  · split <;> rename_i hstop <;> cases hstop.symm.trans hresolve
    simp only [Resolver.toTables_ofTables]
  · split <;> rename_i hstop <;> cases hstop.symm.trans hresolve
    rfl

end ModuleCompiler.Module
