import ModuleCompiler.Proofs.Generation.Mounts

/-!
Bind mounts of a service. A table of them holds what all entries of a mount point say alike, so
neither the order of the entries nor how often one is repeated shows in it.
-/

namespace ModuleCompiler.Module.BindMount

/-- Two entries bind the same source with the same access. -/
structure SameMount (a b : Descriptor.BindMount) : Prop where
  source : a.source = b.source
  readOnly : a.readOnly = b.readOnly

structure IsBound (m : Descriptor.BindMount) (stored : BindMount) : Prop where
  source : stored.source = m.source
  readOnly : stored.readOnly = m.readOnly

/-- An entry says what the first one of its mount point says. -/
def Fits (ms : List Descriptor.BindMount) (m : Descriptor.BindMount) : Prop :=
  ∀ f, IsFirst (·.mountPoint) ms m.mountPoint f → SameMount f m

/-- A table with the mount points of a list, and under each what every entry of it says. -/
structure HoldsAll (out : SortedMap BindMount) (ms : List Descriptor.BindMount) : Prop where
  keys : ∀ k, k ∈ out.keys ↔ ∃ m ∈ ms, m.mountPoint = k
  all : ∀ m ∈ ms, ∃ stored, out.get? m.mountPoint = some stored ∧ IsBound m stored

section Mounts

variable {ms ms' : List Descriptor.BindMount} {a b f m : Descriptor.BindMount}
  {out out' : SortedMap BindMount} {e : MountError}

theorem isBound_iff {stored : BindMount} : IsBound m stored ↔ BindMount.ofDescriptor m = stored := by
  constructor
  · rintro ⟨hsource, hreadOnly⟩
    cases stored
    cases hsource
    cases hreadOnly
    rfl
  · rintro rfl
    exact ⟨rfl, rfl⟩

theorem sameMount_iff : SameMount a b ↔ BindMount.ofDescriptor a = .ofDescriptor b := by
  simp only [BindMount.ofDescriptor, BindMount.mk.injEq]
  exact ⟨fun h => ⟨h.source, h.readOnly⟩, fun h => ⟨h.1, h.2⟩⟩

theorem equivalence_sameMount : Equivalence SameMount where
  refl := fun _ => ⟨rfl, rfl⟩
  symm := fun h => ⟨h.source.symm, h.readOnly.symm⟩
  trans := fun h h' => ⟨h.source.trans h'.source, h.readOnly.trans h'.readOnly⟩

theorem clash_eq_none_iff {k : String} :
    clash k (BindMount.ofDescriptor f) m = none ↔ SameMount f m := by
  rw [sameMount_iff]
  simp [clash]

theorem clash_eq_some_iff {k : String} :
    clash k (BindMount.ofDescriptor f) m = some e ↔ ¬ SameMount f m ∧ e = .duplicate k := by
  rw [sameMount_iff, clash]
  by_cases h : BindMount.ofDescriptor f = .ofDescriptor m
  · simp [h]
  · simp [h, eq_comm]

theorem clash_self (m : Descriptor.BindMount) :
    clash m.mountPoint (BindMount.ofDescriptor m) m = none :=
  clash_eq_none_iff.2 (equivalence_sameMount.refl m)

theorem exists_ofDescriptors_iff : (∃ out, ofDescriptors ms = .ok out) ↔
    ∀ a ∈ ms, ∀ b ∈ ms, a.mountPoint = b.mountPoint → SameMount a b :=
  (exists_merge_iff clash_self).trans
    (forall_agrees_iff equivalence_sameMount fun _ _ _ => clash_eq_none_iff)

theorem HoldsAll.get?_eq_some_iff (h : HoldsAll out ms) {k : String} {stored : BindMount} :
    out.get? k = some stored ↔ ∃ m ∈ ms, m.mountPoint = k ∧ IsBound m stored := by
  constructor
  · intro hk
    obtain ⟨m, hm, rfl⟩ := (h.keys k).1 (SortedMap.mem_keys.2 ⟨stored, hk⟩)
    obtain ⟨stored', hstored', hbound⟩ := h.all m hm
    obtain rfl := Option.some.inj (hk.symm.trans hstored')
    exact ⟨m, hm, rfl, hbound⟩
  · rintro ⟨m, hm, rfl, hbound⟩
    obtain ⟨stored', hstored', hbound'⟩ := h.all m hm
    rw [hstored', ← isBound_iff.1 hbound, ← isBound_iff.1 hbound']

theorem HoldsAll.unique (h : HoldsAll out ms) (h' : HoldsAll out' ms) : out = out' := by
  apply SortedMap.ext_get?
  intro k
  apply Option.ext
  intro stored
  rw [h.get?_eq_some_iff, h'.get?_eq_some_iff]

theorem HoldsAll.congr (hmem : ∀ m, m ∈ ms' ↔ m ∈ ms) : HoldsAll out ms' ↔ HoldsAll out ms := by
  have hkeys : ∀ k, (∃ m ∈ ms', m.mountPoint = k) ↔ ∃ m ∈ ms, m.mountPoint = k :=
    fun k => exists_congr fun m => and_congr_left fun _ => hmem m
  constructor
  · exact fun h => ⟨fun k => (h.keys k).trans (hkeys k), fun m hm => h.all m ((hmem m).2 hm)⟩
  · exact fun h => ⟨fun k => (h.keys k).trans (hkeys k).symm, fun m hm => h.all m ((hmem m).1 hm)⟩

theorem holdsAll_of_ofDescriptors (h : ofDescriptors ms = .ok out) : HoldsAll out ms := by
  constructor
  · intro k
    rw [SortedMap.mem_keys]
    constructor
    · rintro ⟨stored, hk⟩
      obtain ⟨m, hm, hkey, _⟩ := (get?_ofDescriptors h k stored).1 hk
      exact ⟨m, hm, hkey⟩
    · rintro ⟨m, hm, hkey⟩
      exact ⟨_, (get?_ofDescriptors h k _).2 ⟨m, hm, hkey, rfl⟩⟩
  · intro m hm
    exact ⟨_, (get?_ofDescriptors h _ _).2 ⟨m, hm, rfl, rfl⟩, isBound_iff.2 rfl⟩

/-- What a table has to hold leaves nothing open, so one that holds it is the one that is made. -/
theorem ofDescriptors_eq_ok_iff : ofDescriptors ms = .ok out ↔ HoldsAll out ms := by
  constructor
  · exact holdsAll_of_ofDescriptors
  · intro h
    have hagree : ∀ a ∈ ms, ∀ b ∈ ms, a.mountPoint = b.mountPoint → SameMount a b := by
      intro a ha b hb hab
      obtain ⟨stored, hstored, hboundA⟩ := h.all a ha
      obtain ⟨stored', hstored', hboundB⟩ := h.all b hb
      rw [← hab, hstored] at hstored'
      obtain rfl := Option.some.inj hstored'
      rw [sameMount_iff, isBound_iff.1 hboundA, isBound_iff.1 hboundB]
    obtain ⟨out', hout'⟩ := exists_ofDescriptors_iff.2 hagree
    rw [hout', (holdsAll_of_ofDescriptors hout').unique h]

end Mounts

/-- A table of bind mounts is made if and only if all entries of one mount point say the same, and
it holds just that. Lists of the same entries, in whatever order and however often each, have the
same table. Otherwise the earliest entry is told that does not say what the first one of its mount
point says. -/
theorem ofDescriptors_alike (ms : List Descriptor.BindMount) :
    ((∃ out, ofDescriptors ms = .ok out) ↔
      ∀ a ∈ ms, ∀ b ∈ ms, a.mountPoint = b.mountPoint → SameMount a b) ∧
    (∀ out, ofDescriptors ms = .ok out ↔ HoldsAll out ms) ∧
    (∀ ms', (∀ m, m ∈ ms' ↔ m ∈ ms) →
      ∀ out, ofDescriptors ms' = .ok out ↔ ofDescriptors ms = .ok out) ∧
    ∀ e, ofDescriptors ms = .error e ↔
      ∃ before m after, ms = before ++ m :: after ∧ (∀ b ∈ before, Fits ms b) ∧ ¬ Fits ms m ∧
        e = .duplicate m.mountPoint := by
  refine ⟨exists_ofDescriptors_iff, fun _ => ofDescriptors_eq_ok_iff, fun ms' hmem out => ?_,
    fun e => ?_⟩
  · rw [ofDescriptors_eq_ok_iff, ofDescriptors_eq_ok_iff, HoldsAll.congr hmem]
  · exact merge_empty_eq_keyed_iff clash_self (fun _ _ _ => clash_eq_none_iff)
      fun _ _ _ _ => clash_eq_some_iff

/-- Entries of two mount points in turn, one of them twice. -/
def siteMounts : List Descriptor.BindMount :=
  [⟨"/etc", "conf", true⟩, ⟨"/var", "data", false⟩, ⟨"/etc", "conf", true⟩]

theorem ofDescriptors_alike_site :
    ∃ out, ofDescriptors siteMounts = .ok out ∧
      out.toList = [("/etc", ⟨"conf", true⟩), ("/var", ⟨"data", false⟩)] ∧
      ofDescriptors [⟨"/var", "data", false⟩, ⟨"/etc", "conf", true⟩] = .ok out := by
  obtain ⟨out, hout, hlist⟩ := exists_ok_of_toOption_bind (x := ofDescriptors siteMounts)
    (f := fun out => some out.toList)
    (b := [("/etc", ⟨"conf", true⟩), ("/var", ⟨"data", false⟩)]) (by decide)
  have hsame := (ofDescriptors_alike siteMounts).2.2.1
    [⟨"/var", "data", false⟩, ⟨"/etc", "conf", true⟩]
  have hmem : ∀ m, m ∈ [⟨"/var", "data", false⟩, ⟨"/etc", "conf", true⟩] ↔ m ∈ siteMounts := by
    intro m
    simp only [siteMounts, List.mem_cons, List.not_mem_nil, or_false]
    tauto
  exact ⟨out, hout, Option.some.inj hlist, (hsame hmem out).2 hout⟩

end ModuleCompiler.Module.BindMount
