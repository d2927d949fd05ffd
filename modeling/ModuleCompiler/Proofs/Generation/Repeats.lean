import ModuleCompiler.Proofs.Generation.Mounts

/-!
Entries of a service that name one place again. The first entry of the place counts: a table is made
if all others repeat it, and otherwise the earliest entry that does not is told.
-/

namespace ModuleCompiler.Module

namespace TmpfsMount

/-- An entry says what the first one of its mount point says. Its mode may be left out, and is then
whatever is in effect there. -/
structure Repeats (first m : Descriptor.TmpfsMount) : Prop where
  size : m.size = first.size
  mode : ∀ mode, m.mode = some mode → mode = first.mode.getD 0o770

/-- An entry repeats the first one of its mount point. -/
def Fits (ms : List Descriptor.TmpfsMount) (m : Descriptor.TmpfsMount) : Prop :=
  ∀ f, IsFirst (·.mountPoint) ms m.mountPoint f → Repeats f m

structure IsMounted (m : Descriptor.TmpfsMount) (stored : TmpfsMount) : Prop where
  size : stored.size = m.size
  mode : stored.mode = m.mode.getD 0o770

section Tmpfs

variable {ms more : List Descriptor.TmpfsMount} {f m : Descriptor.TmpfsMount}
  {out : SortedMap TmpfsMount} {e : MountError}

theorem agrees_iff_repeats : (TmpfsMount.ofDescriptor f).agrees m = true ↔ Repeats f m := by
  simp only [agrees, Bool.and_eq_true, decide_eq_true_eq, Option.all_eq_true]
  constructor
  · rintro ⟨hsize, hmode⟩
    exact ⟨hsize.symm, hmode⟩
  · rintro ⟨hsize, hmode⟩
    exact ⟨hsize.symm, hmode⟩

theorem isMounted_iff {stored : TmpfsMount} :
    IsMounted f stored ↔ TmpfsMount.ofDescriptor f = stored := by
  constructor
  · rintro ⟨hsize, hmode⟩
    cases stored
    cases hsize
    cases hmode
    rfl
  · rintro rfl
    exact ⟨rfl, rfl⟩

theorem clash_eq_none_iff {k : String} :
    clash k (TmpfsMount.ofDescriptor f) m = none ↔ Repeats f m := by
  rw [← agrees_iff_repeats]
  simp [clash]

theorem clash_eq_some_iff {k : String} :
    clash k (TmpfsMount.ofDescriptor f) m = some e ↔ ¬ Repeats f m ∧ e = .duplicate k := by
  rw [← agrees_iff_repeats, clash]
  by_cases h : (TmpfsMount.ofDescriptor f).agrees m = true
  · simp [h]
  · simp [h, eq_comm]

theorem clash_self (m : Descriptor.TmpfsMount) :
    clash m.mountPoint (TmpfsMount.ofDescriptor m) m = none := by
  simp [clash, agrees_ofDescriptor]

theorem agrees_iff_fits : Agrees (·.mountPoint) TmpfsMount.ofDescriptor clash ms m ↔ Fits ms m :=
  forall₂_congr fun _ _ => clash_eq_none_iff

theorem ofDescriptors_eq_ok_iff : ofDescriptors ms = .ok out ↔
    (∀ m ∈ ms, Fits ms m) ∧ HoldsFirst (·.mountPoint) IsMounted out ms := by
  simp only [← agrees_iff_fits]
  exact merge_empty_eq_ok_iff clash_self fun _ _ => isMounted_iff

theorem ofDescriptors_eq_error_iff : ofDescriptors ms = .error e ↔
    ∃ before m after, ms = before ++ m :: after ∧ (∀ b ∈ before, Fits ms b) ∧ ¬ Fits ms m ∧
      e = .duplicate m.mountPoint :=
  merge_empty_eq_keyed_iff clash_self (fun _ _ _ => clash_eq_none_iff)
    fun _ _ _ _ => clash_eq_some_iff

theorem ofDescriptors_append (h : ofDescriptors ms = .ok out)
    (hmore : ∀ m ∈ more, ∃ f, IsFirst (·.mountPoint) ms m.mountPoint f ∧ Repeats f m) :
    ofDescriptors (ms ++ more) = .ok out := by
  refine (merge_append h).trans (merge_of_agree fun m hm => ?_)
  obtain ⟨f, hf, hrepeats⟩ := hmore m hm
  obtain ⟨stored, hstored, hmounted⟩ := (ofDescriptors_eq_ok_iff.1 h).2.first _ f hf
  cases isMounted_iff.1 hmounted
  exact ⟨_, hstored, clash_eq_none_iff.2 hrepeats⟩

end Tmpfs

/-- A table of tmpfs mounts is made if and only if every entry repeats the first one of its mount
point, and then it holds these; otherwise the earliest entry that does not is told. More entries
that only repeat a size leave it as it is. -/
theorem ofDescriptors_repeated (ms : List Descriptor.TmpfsMount) :
    ((∃ out, ofDescriptors ms = .ok out) ↔ ∀ m ∈ ms, Fits ms m) ∧
    (∀ out, ofDescriptors ms = .ok out ↔
      (∀ m ∈ ms, Fits ms m) ∧ HoldsFirst (·.mountPoint) IsMounted out ms) ∧
    (∀ e, ofDescriptors ms = .error e ↔
      ∃ before m after, ms = before ++ m :: after ∧ (∀ b ∈ before, Fits ms b) ∧ ¬ Fits ms m ∧
        e = .duplicate m.mountPoint) ∧
    ∀ out more, ofDescriptors ms = .ok out →
      (∀ m ∈ more, m.mode = none ∧
        ∃ f, IsFirst (·.mountPoint) ms m.mountPoint f ∧ m.size = f.size) →
      ofDescriptors (ms ++ more) = .ok out := by
  refine ⟨?_, fun _ => ofDescriptors_eq_ok_iff, fun _ => ofDescriptors_eq_error_iff, ?_⟩
  · simp only [← agrees_iff_fits]
    exact exists_merge_iff clash_self
  · intro out more h hmore
    refine ofDescriptors_append h fun m hm => ?_
    obtain ⟨hmode, f, hf, hsize⟩ := hmore m hm
    exact ⟨f, hf, hsize, by simp [hmode]⟩

/-- Entries of two mount points in turn; the mode is given once. -/
def scratchMounts : List Descriptor.TmpfsMount :=
  [⟨"/a", 64, some 0o700⟩, ⟨"/b", 8, none⟩, ⟨"/a", 64, none⟩, ⟨"/b", 8, some 0o770⟩]

theorem ofDescriptors_repeated_scratch :
    ∃ out, ofDescriptors scratchMounts = .ok out ∧
      out.toList = [("/a", ⟨64, 0o700⟩), ("/b", ⟨8, 0o770⟩)] ∧
      ofDescriptors (scratchMounts ++ [⟨"/a", 64, none⟩]) = .ok out := by
  obtain ⟨out, hout, hlist⟩ := exists_ok_of_toOption_bind (x := ofDescriptors scratchMounts)
    (f := fun out => some out.toList) (b := [("/a", ⟨64, 0o700⟩), ("/b", ⟨8, 0o770⟩)]) (by decide)
  have happend := (ofDescriptors_repeated scratchMounts).2.2.2 out [⟨"/a", 64, none⟩] hout
  have hfirst : IsFirst (·.mountPoint) scratchMounts "/a" ⟨"/a", 64, some 0o700⟩ :=
    ⟨[], _, rfl, rfl, nofun⟩
  refine ⟨out, hout, Option.some.inj hlist, happend fun m hm => ?_⟩
  rw [List.mem_singleton.1 hm]
  exact ⟨rfl, _, hfirst, rfl⟩

end TmpfsMount

namespace HttpEndpoint

/-- Two entries are of one endpoint. -/
structure SameTarget (a b : Descriptor.HttpEndpoint) : Prop where
  name : a.name = b.name
  port : a.port = b.port
  path : a.path = b.path

structure IsProxyConf (p : Descriptor.ProxyConf) (stored : ProxyConf) : Prop where
  headers : stored.headers = p.headers
  websocket : stored.websocket = p.websocket
  readTimeout : stored.readTimeout = p.readTimeout

structure IsStringSub (s : Descriptor.StringSub) (stored : StringSub) : Prop where
  replaceOnce : stored.replaceOnce = s.replaceOnce
  mimeTypes : stored.mimeTypes = s.mimeTypes
  filters : stored.filters = s.filters

/-- The endpoint of an entry, with all that the entry says of it. -/
structure IsServed (e : Descriptor.HttpEndpoint) (stored : HttpEndpoint) : Prop where
  name : stored.name = e.name
  port : stored.port = e.port
  path : stored.path = e.path
  proxyConf : Option.Rel IsProxyConf e.proxyConf stored.proxyConf
  stringSub : Option.Rel IsStringSub e.stringSub stored.stringSub

/-- How an entry is told that has the public path of another endpoint. Only a path that is given as
an external one is told with both internal paths. -/
inductive IsDuplicate (first e : Descriptor.HttpEndpoint) : MountError → Prop
  | external {k : String} : e.extPath = some k →
      IsDuplicate first e (.duplicateEndpoint k first.path e.path)
  | internal : e.extPath = none → IsDuplicate first e (.duplicate e.path)

section Endpoints

variable {es : List Descriptor.HttpEndpoint} {f e : Descriptor.HttpEndpoint}
  {out : SortedMap HttpEndpoint} {err : MountError}

theorem agrees_iff_sameTarget :
    (HttpEndpoint.ofDescriptor f).agrees e = true ↔ SameTarget f e := by
  simp only [agrees, Bool.and_eq_true, decide_eq_true_eq]
  exact ⟨fun ⟨⟨hn, hp⟩, hpath⟩ => ⟨hn, hp, hpath⟩, fun ⟨hn, hp, hpath⟩ => ⟨⟨hn, hp⟩, hpath⟩⟩

theorem rel_iff_map_eq {R : α → β → Prop} {g : α → β} (h : ∀ a b, R a b ↔ g a = b) {o : Option α}
    {o' : Option β} : Option.Rel R o o' ↔ o.map g = o' := by
  cases o with
  | none =>
    cases o' with
    | none => exact iff_of_true .none rfl
    | some b => exact ⟨nofun, nofun⟩
  | some a =>
    cases o' with
    | none => exact ⟨nofun, nofun⟩
    | some b => simp [h]

theorem isProxyConf_iff {p : Descriptor.ProxyConf} {stored : ProxyConf} :
    IsProxyConf p stored ↔ ProxyConf.ofDescriptor p = stored := by
  constructor
  · rintro ⟨hh, hw, hr⟩
    cases stored
    cases hh
    cases hw
    cases hr
    rfl
  · rintro rfl
    exact ⟨rfl, rfl, rfl⟩

theorem isStringSub_iff {s : Descriptor.StringSub} {stored : StringSub} :
    IsStringSub s stored ↔ StringSub.ofDescriptor s = stored := by
  constructor
  · rintro ⟨hr, hm, hf⟩
    cases stored
    cases hr
    cases hm
    cases hf
    rfl
  · rintro rfl
    exact ⟨rfl, rfl, rfl⟩

theorem isServed_iff {stored : HttpEndpoint} :
    IsServed f stored ↔ HttpEndpoint.ofDescriptor f = stored := by
  have hproxy : ∀ {o o'}, Option.Rel IsProxyConf o o' ↔ o.map ProxyConf.ofDescriptor = o' :=
    rel_iff_map_eq (fun p stored => @isProxyConf_iff p stored)
  have hsub : ∀ {o o'}, Option.Rel IsStringSub o o' ↔ o.map StringSub.ofDescriptor = o' :=
    rel_iff_map_eq (fun s stored => @isStringSub_iff s stored)
  constructor
  · rintro ⟨hn, hp, hpath, hc, hs⟩
    cases stored
    cases hn
    cases hp
    cases hpath
    cases hproxy.1 hc
    cases hsub.1 hs
    rfl
  · rintro rfl
    exact ⟨rfl, rfl, rfl, hproxy.2 rfl, hsub.2 rfl⟩

theorem clash_eq_none_iff {k : String} :
    clash k (HttpEndpoint.ofDescriptor f) e = none ↔ SameTarget f e := by
  rw [← agrees_iff_sameTarget, clash]
  split
  · exact iff_of_true rfl ‹_›
  · rename_i hagrees
    refine iff_of_false ?_ hagrees
    split <;> exact nofun

theorem clash_eq_some_iff :
    clash (publicPath e) (HttpEndpoint.ofDescriptor f) e = some err ↔
      ¬ SameTarget f e ∧ IsDuplicate f e err := by
  rw [← agrees_iff_sameTarget, clash, publicPath]
  split
  · exact ⟨nofun, fun h => absurd ‹_› h.1⟩
  · rename_i hagrees
    cases hext : e.extPath with
    | none =>
      simp only [Option.isSome_none, Bool.false_eq_true, if_false, Option.getD_none]
      constructor
      · intro h
        cases h
        exact ⟨hagrees, .internal hext⟩
      · rintro ⟨_, hd⟩
        cases hd with
        | external hk => cases hext.symm.trans hk
        | internal _ => rfl
    | some k =>
      simp only [Option.isSome_some, if_true, Option.getD_some]
      constructor
      · intro h
        cases h
        exact ⟨hagrees, .external hext⟩
      · rintro ⟨_, hd⟩
        cases hd with
        | external hk =>
          cases hext.symm.trans hk
          rfl
        | internal hnone => cases hext.symm.trans hnone

theorem SameTarget.refl (e : Descriptor.HttpEndpoint) : SameTarget e e := ⟨rfl, rfl, rfl⟩

theorem SameTarget.symm {a b : Descriptor.HttpEndpoint} (h : SameTarget a b) : SameTarget b a :=
  ⟨h.name.symm, h.port.symm, h.path.symm⟩

theorem SameTarget.trans {a b c : Descriptor.HttpEndpoint} (h : SameTarget a b)
    (h' : SameTarget b c) : SameTarget a c :=
  ⟨h.name.trans h'.name, h.port.trans h'.port, h.path.trans h'.path⟩

theorem clash_self (e : Descriptor.HttpEndpoint) :
    clash (publicPath e) (HttpEndpoint.ofDescriptor e) e = none :=
  clash_eq_none_iff.2 (.refl e)

/-- An entry is of the endpoint that is first under its public path. -/
def Fits (es : List Descriptor.HttpEndpoint) (e : Descriptor.HttpEndpoint) : Prop :=
  ∀ f, IsFirst publicPath es (publicPath e) f → SameTarget f e

theorem agrees_iff_fits : Agrees publicPath HttpEndpoint.ofDescriptor clash es e ↔ Fits es e :=
  forall₂_congr fun _ _ => clash_eq_none_iff

/-- What agrees with the first entry of a path agrees with all others there. -/
theorem forall_fits_iff : (∀ e ∈ es, Fits es e) ↔
    ∀ a ∈ es, ∀ b ∈ es, publicPath a = publicPath b → SameTarget a b := by
  simp only [← agrees_iff_fits]
  exact forall_agrees_iff ⟨SameTarget.refl, SameTarget.symm, SameTarget.trans⟩
    fun _ _ _ => clash_eq_none_iff

end Endpoints

/-- A table of endpoints is made if and only if all entries of one public path are of one endpoint,
and then it holds the first entry of each path with all that it says. Otherwise the earliest entry
that is of another endpoint than the first of its path is told. -/
theorem ofDescriptors_shared (es : List Descriptor.HttpEndpoint) :
    ((∃ out, ofDescriptors es = .ok out) ↔
      ∀ a ∈ es, ∀ b ∈ es, publicPath a = publicPath b → SameTarget a b) ∧
    (∀ out, ofDescriptors es = .ok out ↔
      (∀ a ∈ es, ∀ b ∈ es, publicPath a = publicPath b → SameTarget a b) ∧
      HoldsFirst publicPath IsServed out es) ∧
    ∀ err, ofDescriptors es = .error err ↔
      ∃ before e after f, es = before ++ e :: after ∧ (∀ b ∈ before, Fits es b) ∧
        IsFirst publicPath es (publicPath e) f ∧ ¬ SameTarget f e ∧ IsDuplicate f e err := by
  simp only [← forall_fits_iff, ← agrees_iff_fits]
  refine ⟨exists_merge_iff clash_self, fun out => ?_, fun err => ?_⟩
  · exact merge_empty_eq_ok_iff clash_self fun _ _ => isServed_iff
  · simp only [← clash_eq_some_iff]
    exact merge_empty_eq_error_iff clash_self

example : ofDescriptors [{ name := "a", path := "/x" },
    { name := "b", path := "/y", extPath := some "/x" }] =
      .error (.duplicateEndpoint "/x" "/x" "/y") := rfl

end HttpEndpoint

end ModuleCompiler.Module
