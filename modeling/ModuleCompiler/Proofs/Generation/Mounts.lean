import ModuleCompiler.Module.Service
import ModuleCompiler.Proofs.Generation.Merge
import ModuleCompiler.Proofs.Outcome

/-!
Mounts in one place. The first entry of a place is kept, and a table is made only if all later
entries of the place agree with it.
-/

namespace ModuleCompiler.Module

/-- Two entries want different things at one mount point. -/
def BindMount.Clash (ms : List Descriptor.BindMount) : Prop :=
  ∃ a ∈ ms, ∃ b ∈ ms, a.mountPoint = b.mountPoint ∧ BindMount.ofDescriptor a ≠ .ofDescriptor b

/-- An entry does not agree with the first one at its mount point. -/
def TmpfsMount.Clash (ms : List Descriptor.TmpfsMount) : Prop :=
  ∃ a, ∃ b ∈ ms, ms.find? (·.mountPoint = b.mountPoint) = some a ∧
    (TmpfsMount.ofDescriptor a).agrees b = false

theorem BindMount.get?_ofDescriptors {ms : List Descriptor.BindMount} {out : SortedMap BindMount}
    (h : BindMount.ofDescriptors ms = .ok out) (k : String) (b : BindMount) :
    out.get? k = some b ↔ ∃ a ∈ ms, a.mountPoint = k ∧ BindMount.ofDescriptor a = b := by
  constructor
  · intro hb
    rw [get?_merge h] at hb
    obtain ⟨a, ha, hab⟩ := Option.map_eq_some_iff.1 hb
    exact ⟨a, List.mem_of_find?_eq_some ha, by simpa using List.find?_some ha, hab⟩
  · rintro ⟨a, ha, rfl, rfl⟩
    obtain ⟨stored, hstored, hagree⟩ := agrees_of_merge h ha
    rw [hstored]
    rcases hagree with rfl | hagree
    · rfl
    · exact congrArg some (by simpa [BindMount.clash] using hagree)

theorem TmpfsMount.agrees_ofDescriptor (m : Descriptor.TmpfsMount) :
    (TmpfsMount.ofDescriptor m).agrees m = true := by
  cases hm : m.mode <;> simp [TmpfsMount.ofDescriptor, TmpfsMount.agrees, hm]

theorem TmpfsMount.get?_ofDescriptors {ms : List Descriptor.TmpfsMount}
    {out : SortedMap TmpfsMount} (h : TmpfsMount.ofDescriptors ms = .ok out) (k : String) :
    out.get? k = (ms.find? (·.mountPoint = k)).map .ofDescriptor := by
  rw [get?_merge h]
  rfl

theorem TmpfsMount.agrees_of_ofDescriptors {ms : List Descriptor.TmpfsMount}
    {out : SortedMap TmpfsMount} (h : TmpfsMount.ofDescriptors ms = .ok out)
    {m : Descriptor.TmpfsMount} (hm : m ∈ ms) :
    ∃ stored, out.get? m.mountPoint = some stored ∧ stored.agrees m = true := by
  obtain ⟨stored, hstored, rfl | hagree⟩ := agrees_of_merge h hm
  · exact ⟨_, hstored, agrees_ofDescriptor m⟩
  · exact ⟨stored, hstored, by simpa [TmpfsMount.clash] using hagree⟩

/-- Bind mounts are what all entries of their place say. A tmpfs is what the first entry of its
place says, and the others agree with it. -/
structure KeepsMounts (bound : SortedMap BindMount) (tmpfs : SortedMap TmpfsMount)
    (bs : List Descriptor.BindMount) (ts : List Descriptor.TmpfsMount) : Prop where
  all : ∀ k b, bound.get? k = some b ↔
    ∃ a ∈ bs, a.mountPoint = k ∧ BindMount.ofDescriptor a = b
  first : ∀ k, tmpfs.get? k = (ts.find? (·.mountPoint = k)).map .ofDescriptor
  agree : ∀ t ∈ ts, ∃ stored, tmpfs.get? t.mountPoint = some stored ∧ stored.agrees t = true

section Keeps

variable {bound : SortedMap BindMount} {tmpfs : SortedMap TmpfsMount}
  {bs : List Descriptor.BindMount} {ts : List Descriptor.TmpfsMount}

theorem KeepsMounts.of_ofDescriptors (hb : BindMount.ofDescriptors bs = .ok bound)
    (ht : TmpfsMount.ofDescriptors ts = .ok tmpfs) : KeepsMounts bound tmpfs bs ts where
  all := BindMount.get?_ofDescriptors hb
  first := TmpfsMount.get?_ofDescriptors ht
  agree := fun _ => TmpfsMount.agrees_of_ofDescriptors ht

theorem KeepsMounts.bindMounts_unique (h : KeepsMounts bound tmpfs bs ts) :
    ¬ BindMount.Clash bs := by
  rintro ⟨a, ha, b, hb, hk, hne⟩
  have hka := (h.all a.mountPoint (.ofDescriptor a)).2 ⟨a, ha, rfl, rfl⟩
  have hkb := (h.all a.mountPoint (.ofDescriptor b)).2 ⟨b, hb, hk.symm, rfl⟩
  exact hne (Option.some.inj (hka.symm.trans hkb))

theorem KeepsMounts.tmpfs_unique (h : KeepsMounts bound tmpfs bs ts) : ¬ TmpfsMount.Clash ts := by
  rintro ⟨a, b, hb, ha, hne⟩
  obtain ⟨stored, hstored, hagree⟩ := h.agree b hb
  rw [h.first, ha] at hstored
  cases hstored
  simp [hne] at hagree

end Keeps

theorem Service.keepsMounts {id : String} {s : Descriptor.Service} {srv : Service}
    (h : Service.ofDescriptor id s = .ok srv) :
    KeepsMounts srv.bindMounts srv.tmpfs s.bindMounts s.tmpfs := by
  simp only [Service.ofDescriptor, inSection, bind_eq_ok_iff, mapError_eq_ok_iff,
    pure_eq_ok_iff] at h
  obtain ⟨_, hb, _, ht, _, _, _, _, rfl⟩ := h
  exact .of_ofDescriptors hb ht

theorem AuxService.keepsMounts {id : String} {s : Descriptor.AuxService} {srv : AuxService}
    (h : AuxService.ofDescriptor id s = .ok srv) :
    KeepsMounts srv.bindMounts srv.tmpfs s.bindMounts s.tmpfs := by
  simp only [AuxService.ofDescriptor, inSection, bind_eq_ok_iff, mapError_eq_ok_iff,
    pure_eq_ok_iff] at h
  obtain ⟨_, hb, _, ht, rfl⟩ := h
  exact .of_ofDescriptors hb ht

end ModuleCompiler.Module
