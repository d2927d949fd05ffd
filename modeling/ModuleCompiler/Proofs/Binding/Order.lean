import ModuleCompiler.Proofs.Binding.Request

/-!
The order in which the references of a descriptor are bound: pass by pass, in a pass entry by
entry, and of a secret first what is bound at mount points. One part of one entry stands together,
with its targets and their ids as they are listed.
-/

namespace ModuleCompiler.Module

/-- Keys of the entry of the descriptor that a binding comes from, outermost first. -/
def SharedBinding.entry : SharedBinding → List String
  | serviceReference r => [r.reference]
  | volume name => [name]
  | dependency r => [r.moduleId, r.service]
  | config name => [name]

def Binding.entry : Binding → List String
  | shared b => b.entry
  | hostResource r => [r.reference]
  | secretMount r => [r.reference]
  | secretVariable r => [r.reference]

def Binding.part : Binding → Nat
  | secretVariable _ => 1
  | _ => 0

namespace Step

/-- Passes by their numbers. Helper services follow services family by family. -/
def passOf : Family → ServiceKind → Nat
  | .serviceReference, .service => 0
  | .serviceReference, .auxService => 1
  | .volume, .service => 2
  | .volume, .auxService => 3
  | .dependency, .service => 4
  | .dependency, .auxService => 5
  | .hostResource, _ => 6
  | .secretMount, _ => 7
  | .secretVariable, _ => 7
  | .config, .service => 8
  | .config, .auxService => 9

def pass (s : Step) : Nat := passOf s.family s.kind

def entry (s : Step) : List String := s.binding.entry

def part (s : Step) : Nat := s.binding.part

/-- The order of passes, of entries in a pass, and of parts in an entry. -/
def Precedes (a b : Step) : Prop :=
  a.pass < b.pass ∨ a.pass = b.pass ∧
    (a.entry < b.entry ∨ a.entry = b.entry ∧ a.part ≤ b.part)

structure InPasses (first last : Nat) (ss : List Step) : Prop where
  ordered : ss.Pairwise Precedes
  pass : ∀ s ∈ ss, first ≤ s.pass ∧ s.pass ≤ last

theorem InPasses.append {first middle last : Nat} {ss ss' : List Step}
    (h : InPasses first middle ss) (h' : InPasses (middle + 1) last ss')
    (hm : first ≤ middle + 1) (hm' : middle ≤ last) : InPasses first last (ss ++ ss') := by
  constructor
  · refine List.pairwise_append.2 ⟨h.ordered, h'.ordered, fun a ha b hb => .inl ?_⟩
    have := (h.pass a ha).2
    have := (h'.pass b hb).1
    omega
  · intro s hs
    rcases List.mem_append.1 hs with hs | hs
    · have := h.pass s hs
      omega
    · have := h'.pass s hs
      omega

/-- A step belongs to one part of one entry in one pass. -/
structure IsAt (pass : Nat) (entry : List String) (part : Nat) (s : Step) : Prop where
  pass_eq : s.pass = pass
  entry_eq : s.entry = entry
  part_eq : s.part = part

theorem IsAt.precedes {pass part part' : Nat} {entry : List String} {a b : Step}
    (ha : a.IsAt pass entry part) (hb : b.IsAt pass entry part') (h : part ≤ part') :
    Precedes a b := by
  have hpart : a.part ≤ b.part := by rw [ha.part_eq, hb.part_eq]; exact h
  exact .inr ⟨ha.pass_eq.trans hb.pass_eq.symm, .inr ⟨ha.entry_eq.trans hb.entry_eq.symm, hpart⟩⟩

theorem pairwise_of_isAt {ss : List Step} {pass part : Nat} {entry : List String}
    (h : ∀ s ∈ ss, s.IsAt pass entry part) : ss.Pairwise Precedes :=
  List.pairwise_of_forall_mem_list fun a ha b hb => (h a ha).precedes (h b hb) (Nat.le_refl _)

theorem append_cons_lt (keys : List String) {k k' : String} (h : k < k')
    (rest rest' : List String) :
    keys ++ k :: rest < keys ++ k' :: rest' := by
  induction keys with
  | nil => exact List.cons_lt_cons_iff.2 (.inl h)
  | cons key keys ih => exact List.cons_lt_cons_iff.2 (.inr ⟨rfl, ih⟩)

theorem pairwise_entries {m : SortedMap α} {f : String × α → List Step} (pass : Nat)
    (keys : List String) (hf : ∀ e ∈ m.toList, (f e).Pairwise Precedes)
    (h : ∀ e, ∀ s ∈ f e, s.pass = pass ∧ ∃ rest, s.entry = keys ++ e.1 :: rest) :
    (m.toList.flatMap f).Pairwise Precedes := by
  refine List.pairwise_flatMap.2 ⟨hf, m.ascending.imp fun {e e'} hlt a ha b hb => ?_⟩
  obtain ⟨hp, rest, he⟩ := h e a ha
  obtain ⟨hp', rest', he'⟩ := h e' b hb
  refine .inr ⟨hp.trans hp'.symm, .inl ?_⟩
  rw [he, he']
  exact append_cons_lt keys hlt rest rest'

theorem inPasses_entries {m : SortedMap α} {f : String × α → List Step} {pass : Nat}
    (h : ∀ e, ∀ s ∈ f e, s.IsAt pass [e.1] 0) : InPasses pass pass (m.toList.flatMap f) := by
  constructor
  · refine pairwise_entries pass [] (fun e _ => pairwise_of_isAt (h e)) fun e s hs => ?_
    exact ⟨(h e s hs).pass_eq, [], (h e s hs).entry_eq⟩
  · intro s hs
    obtain ⟨e, _, hs⟩ := List.mem_flatMap.1 hs
    have := (h e s hs).pass_eq
    omega

theorem IsAt.of_binding {kind : ServiceKind} {b : Binding} {s : Step} (hk : s.kind = kind)
    (hb : s.binding = b) : s.IsAt (passOf b.family kind) b.entry b.part := by
  subst hk hb
  exact ⟨rfl, rfl, rfl⟩

theorem of_mem_onKind {kind : ServiceKind} {services auxServices : List String} {key : String}
    {b : SharedBinding} {s : Step} (h : s ∈ onKind kind services auxServices key b) :
    s.kind = kind ∧ s.binding = .shared b := by
  cases kind <;> obtain ⟨id, _, rfl⟩ := List.mem_map.1 h <;> exact ⟨rfl, rfl⟩

theorem of_mem_onServices {services : List String} {key : String} {b : Binding} {s : Step}
    (h : s ∈ onServices services key b) : s.kind = .service ∧ s.binding = b := by
  obtain ⟨id, _, rfl⟩ := List.mem_map.1 h
  exact ⟨rfl, rfl⟩

theorem of_mem_bindAt {t : Descriptor.SecretTarget} {key : Option String} {b : Binding} {s : Step}
    (h : s ∈ ofSecrets.bindAt t key b) : s.kind = .service ∧ s.binding = b := by
  cases key with
  | none => cases h
  | some key => exact of_mem_onServices h

theorem inPasses_serviceReferences (refs : SortedMap (List Descriptor.DependencyTarget))
    (kind : ServiceKind) :
    InPasses (passOf .serviceReference kind) (passOf .serviceReference kind)
      (ofServiceReferences refs kind) := by
  refine inPasses_entries fun ⟨reference, targets⟩ s hs => ?_
  obtain ⟨t, _, hs⟩ := List.mem_flatMap.1 hs
  obtain ⟨hk, hb⟩ := of_mem_onKind hs
  exact .of_binding hk hb

theorem inPasses_volumes (volumes : SortedMap (List Descriptor.VolumeTarget))
    (kind : ServiceKind) :
    InPasses (passOf .volume kind) (passOf .volume kind) (ofVolumes volumes kind) := by
  refine inPasses_entries fun ⟨name, targets⟩ s hs => ?_
  obtain ⟨t, _, hs⟩ := List.mem_flatMap.1 hs
  obtain ⟨hk, hb⟩ := of_mem_onKind hs
  exact .of_binding hk hb

theorem inPasses_configs (configs : SortedMap Descriptor.ConfigValue) (kind : ServiceKind) :
    InPasses (passOf .config kind) (passOf .config kind) (ofConfigs configs kind) := by
  refine inPasses_entries fun ⟨name, c⟩ s hs => ?_
  obtain ⟨t, _, hs⟩ := List.mem_flatMap.1 hs
  obtain ⟨hk, hb⟩ := of_mem_onKind hs
  exact .of_binding hk hb

theorem inPasses_hostResources (resources : SortedMap Descriptor.HostResource) :
    InPasses 6 6 (ofHostResources resources) := by
  refine inPasses_entries fun ⟨name, r⟩ s hs => ?_
  obtain ⟨t, _, hs⟩ := List.mem_flatMap.1 hs
  obtain ⟨hk, hb⟩ := of_mem_onServices hs
  exact .of_binding hk hb

theorem of_mem_dependency {moduleId : String} {kind : ServiceKind}
    {e : String × List Descriptor.DependencyTarget} {s : Step}
    (h : s ∈ e.2.flatMap fun t => onKind kind t.services t.auxServices t.refVar
      (.dependency ⟨moduleId, e.1, t.template⟩)) :
    s.IsAt (passOf .dependency kind) [moduleId, e.1] 0 := by
  obtain ⟨t, _, hs⟩ := List.mem_flatMap.1 h
  obtain ⟨hk, hb⟩ := of_mem_onKind hs
  exact .of_binding hk hb

theorem inPasses_dependencies (deps : SortedMap Descriptor.ModuleDependency) (kind : ServiceKind) :
    InPasses (passOf .dependency kind) (passOf .dependency kind) (ofDependencies deps kind) := by
  constructor
  · refine pairwise_entries (passOf .dependency kind) [] (fun ⟨moduleId, dep⟩ _ => ?_)
      fun ⟨moduleId, dep⟩ s hs => ?_
    · refine pairwise_entries (passOf .dependency kind) [moduleId]
        (fun e _ => pairwise_of_isAt fun s hs => of_mem_dependency hs) fun e s hs => ?_
      have h := of_mem_dependency hs
      exact ⟨h.pass_eq, [], h.entry_eq⟩
    · obtain ⟨e, _, hs⟩ := List.mem_flatMap.1 hs
      have h := of_mem_dependency hs
      exact ⟨h.pass_eq, [e.1], h.entry_eq⟩
  · intro s hs
    obtain ⟨⟨moduleId, dep⟩, _, hs⟩ := List.mem_flatMap.1 hs
    obtain ⟨e, _, hs⟩ := List.mem_flatMap.1 hs
    have h := (of_mem_dependency hs).pass_eq
    omega

def mountsOf (name : String) (secret : Descriptor.Secret) : List Step :=
  secret.targets.flatMap fun t => ofSecrets.bindAt t t.mountPoint (.secretMount ⟨name, t.item⟩)

def variablesOf (name : String) (secret : Descriptor.Secret) : List Step :=
  secret.targets.flatMap fun t => ofSecrets.bindAt t t.refVar (.secretVariable ⟨name, t.item⟩)

theorem of_mem_mountsOf {name : String} {secret : Descriptor.Secret} {s : Step}
    (h : s ∈ mountsOf name secret) : s.IsAt 7 [name] 0 := by
  obtain ⟨t, _, hs⟩ := List.mem_flatMap.1 h
  obtain ⟨hk, hb⟩ := of_mem_bindAt hs
  exact .of_binding hk hb

theorem of_mem_variablesOf {name : String} {secret : Descriptor.Secret} {s : Step}
    (h : s ∈ variablesOf name secret) : s.IsAt 7 [name] 1 := by
  obtain ⟨t, _, hs⟩ := List.mem_flatMap.1 h
  obtain ⟨hk, hb⟩ := of_mem_bindAt hs
  exact .of_binding hk hb

theorem ofSecrets_eq (secrets : SortedMap Descriptor.Secret) :
    ofSecrets secrets = secrets.toList.flatMap fun e => mountsOf e.1 e.2 ++ variablesOf e.1 e.2 :=
  rfl

theorem of_mem_secret {name : String} {secret : Descriptor.Secret} {s : Step}
    (h : s ∈ mountsOf name secret ++ variablesOf name secret) : ∃ part, s.IsAt 7 [name] part := by
  rcases List.mem_append.1 h with hs | hs
  · exact ⟨0, of_mem_mountsOf hs⟩
  · exact ⟨1, of_mem_variablesOf hs⟩

theorem inPasses_secrets (secrets : SortedMap Descriptor.Secret) :
    InPasses 7 7 (ofSecrets secrets) := by
  rw [ofSecrets_eq]
  constructor
  · refine pairwise_entries 7 [] (fun ⟨name, secret⟩ _ => ?_) fun e s hs => ?_
    · refine List.pairwise_append.2 ⟨pairwise_of_isAt fun _ => of_mem_mountsOf,
        pairwise_of_isAt fun _ => of_mem_variablesOf, fun a ha b hb => ?_⟩
      exact (of_mem_mountsOf ha).precedes (of_mem_variablesOf hb) (Nat.zero_le 1)
    · obtain ⟨_, h⟩ := of_mem_secret hs
      exact ⟨h.pass_eq, [], h.entry_eq⟩
  · intro s hs
    obtain ⟨e, _, hs⟩ := List.mem_flatMap.1 hs
    obtain ⟨_, h⟩ := of_mem_secret hs
    have := h.pass_eq
    omega

theorem ofDescriptor_ordered (d : Descriptor) : (ofDescriptor d).Pairwise Precedes := by
  have hr : InPasses 0 1 (bothKinds (ofServiceReferences d.serviceReferences)) :=
    (inPasses_serviceReferences _ .service).append (inPasses_serviceReferences _ .auxService)
      (by decide) (by decide)
  have hv : InPasses 2 3 (bothKinds (ofVolumes d.volumes)) :=
    (inPasses_volumes _ .service).append (inPasses_volumes _ .auxService) (by decide) (by decide)
  have hd : InPasses 4 5 (bothKinds (ofDependencies d.dependencies)) :=
    (inPasses_dependencies _ .service).append (inPasses_dependencies _ .auxService)
      (by decide) (by decide)
  have hc : InPasses 8 9 (bothKinds (ofConfigs d.configs)) :=
    (inPasses_configs _ .service).append (inPasses_configs _ .auxService) (by decide) (by decide)
  have h := ((((hr.append hv (by decide) (by decide)).append hd (by decide) (by decide)).append
    (inPasses_hostResources d.hostResources) (by decide) (by decide)).append
    (inPasses_secrets d.secrets) (by decide) (by decide)).append hc (by decide) (by decide)
  exact h.ordered

/-- The steps of one part of one entry in one pass, by targets and by ids of a target. -/
inductive IsBlock (d : Descriptor) : List Step → Prop
  | serviceReference (kind : ServiceKind) {reference : String}
      {targets : List Descriptor.DependencyTarget} :
      d.serviceReferences.get? reference = some targets →
      IsBlock d (targets.flatMap fun t =>
        onKind kind t.services t.auxServices t.refVar (.serviceReference ⟨reference, t.template⟩))
  | volume (kind : ServiceKind) {name : String} {targets : List Descriptor.VolumeTarget} :
      d.volumes.get? name = some targets →
      IsBlock d (targets.flatMap fun t =>
        onKind kind t.services t.auxServices t.mountPoint (.volume name))
  | dependency (kind : ServiceKind) {moduleId service : String} {dep : Descriptor.ModuleDependency}
      {targets : List Descriptor.DependencyTarget} :
      d.dependencies.get? moduleId = some dep → dep.requiredServices.get? service = some targets →
      IsBlock d (targets.flatMap fun t =>
        onKind kind t.services t.auxServices t.refVar (.dependency ⟨moduleId, service, t.template⟩))
  | hostResource {name : String} {r : Descriptor.HostResource} :
      d.hostResources.get? name = some r →
      IsBlock d (r.targets.flatMap fun t =>
        onServices t.services t.mountPoint (.hostResource ⟨name, t.readOnly⟩))
  | secretMount {name : String} {secret : Descriptor.Secret} :
      d.secrets.get? name = some secret → IsBlock d (mountsOf name secret)
  | secretVariable {name : String} {secret : Descriptor.Secret} :
      d.secrets.get? name = some secret → IsBlock d (variablesOf name secret)
  | config (kind : ServiceKind) {name : String} {c : Descriptor.ConfigValue} :
      d.configs.get? name = some c →
      IsBlock d (c.targets.flatMap fun t =>
        onKind kind t.services t.auxServices t.refVar (.config name))

theorem infix_entries {m : SortedMap α} {f : String × α → List Step} {k : String} {a : α}
    {ss : List Step} (h : m.get? k = some a) (hf : f (k, a) = ss) : ss <:+: m.toList.flatMap f := by
  subst hf
  exact List.infix_of_mem_flatten (List.mem_map_of_mem (SortedMap.get?_eq_some_iff.1 h))

theorem infix_of_kind {f : ServiceKind → List Step} {kind : ServiceKind} {ss : List Step}
    (h : ss <:+: f kind) : ss <:+: bothKinds f := by
  cases kind with
  | service => exact h.trans (List.prefix_append _ _).isInfix
  | auxService => exact h.trans (List.suffix_append _ _).isInfix

theorem IsBlock.isInfix {d : Descriptor} {ss : List Step} (h : IsBlock d ss) :
    ss <:+: ofDescriptor d := by
  have hleft {l l' : List Step} (hl : ss <:+: l) : ss <:+: l ++ l' :=
    List.infix_append_of_infix_left hl
  have hright {l l' : List Step} (hl : ss <:+: l') : ss <:+: l ++ l' :=
    List.infix_append_of_infix_right hl
  cases h with
  | serviceReference kind he =>
    have hb : _ <:+: ofServiceReferences d.serviceReferences kind := infix_entries he rfl
    exact hleft (hleft (hleft (hleft (hleft (infix_of_kind hb)))))
  | volume kind he =>
    have hb : _ <:+: ofVolumes d.volumes kind := infix_entries he rfl
    exact hleft (hleft (hleft (hleft (hright (infix_of_kind hb)))))
  | dependency kind hd he =>
    have hb : _ <:+: ofDependencies d.dependencies kind :=
      (infix_entries he rfl).trans (infix_entries hd rfl)
    exact hleft (hleft (hleft (hright (infix_of_kind hb))))
  | hostResource he => exact hleft (hleft (hright (infix_entries he rfl)))
  | @secretMount name secret he =>
    have hb : mountsOf name secret ++ variablesOf name secret <:+: ofSecrets d.secrets :=
      infix_entries he rfl
    exact hleft (hright ((List.prefix_append _ _).isInfix.trans hb))
  | @secretVariable name secret he =>
    have hb : mountsOf name secret ++ variablesOf name secret <:+: ofSecrets d.secrets :=
      infix_entries he rfl
    exact hleft (hright ((List.suffix_append _ _).isInfix.trans hb))
  | config kind he =>
    have hb : _ <:+: ofConfigs d.configs kind := infix_entries he rfl
    exact hright (infix_of_kind hb)

/-- A list of all steps of a descriptor in the order of processing. -/
structure InOrder (d : Descriptor) (ss : List Step) : Prop where
  mem : ∀ s, s ∈ ss ↔ Asks d s
  ordered : ss.Pairwise Precedes
  blocks : ∀ block, IsBlock d block → block <:+: ss

theorem inOrder_ofDescriptor (d : Descriptor) : InOrder d (ofDescriptor d) :=
  ⟨fun _ => mem_ofDescriptor, ofDescriptor_ordered d, fun _ h => h.isInfix⟩

end Step

end ModuleCompiler.Module
