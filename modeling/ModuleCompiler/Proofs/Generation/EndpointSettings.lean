import ModuleCompiler.Proofs.Generation.Repeats

/-!
Proxy and substitution settings of endpoints. They do not tell endpoints apart, so of the entries
with one public path the first one's settings are kept, whatever the others say.
-/

namespace ModuleCompiler.Module

/-- The place that is told. -/
def MountError.key : MountError → String
  | duplicate key => key
  | duplicateEndpoint key _ _ => key

namespace HttpEndpoint

structure SameSettings (a b : Descriptor.HttpEndpoint) : Prop where
  proxyConf : a.proxyConf = b.proxyConf
  stringSub : a.stringSub = b.stringSub

/-- What is kept for an entry: its own target, with the settings of the first entry of its path. -/
structure IsKept (first e : Descriptor.HttpEndpoint) (stored : HttpEndpoint) : Prop where
  name : stored.name = e.name
  port : stored.port = e.port
  path : stored.path = e.path
  proxyConf : Option.Rel IsProxyConf first.proxyConf stored.proxyConf
  stringSub : Option.Rel IsStringSub first.stringSub stored.stringSub

section Settings

variable {es : List Descriptor.HttpEndpoint} {f e : Descriptor.HttpEndpoint}
  {stored : HttpEndpoint} {out : SortedMap HttpEndpoint} {err : MountError}

theorem exists_isServed (h : ofDescriptors es = .ok out) (he : e ∈ es) :
    ∃ f stored, IsFirst publicPath es (publicPath e) f ∧
      out.get? (publicPath e) = some stored ∧ IsServed f stored ∧ SameTarget f e := by
  have hmerge := (merge_empty_eq_ok_iff clash_self fun _ _ => isServed_iff).1 h
  obtain ⟨f, hf⟩ := exists_isFirst publicPath he
  obtain ⟨stored, hstored, hserved⟩ := hmerge.2.first _ f hf
  have hfits : Fits es e := agrees_iff_fits.1 (hmerge.1 e he)
  exact ⟨f, stored, hf, hstored, hserved, hfits f hf⟩

theorem isKept_of_isServed (h : IsServed f stored) (hsame : SameTarget f e) :
    IsKept f e stored where
  name := h.name.trans hsame.name
  port := h.port.trans hsame.port
  path := h.path.trans hsame.path
  proxyConf := h.proxyConf
  stringSub := h.stringSub

theorem proxyConf_injective : Function.Injective ProxyConf.ofDescriptor := by
  rintro ⟨headers, websocket, readTimeout⟩ ⟨headers', websocket', readTimeout'⟩ h
  cases h
  rfl

theorem stringSub_injective : Function.Injective StringSub.ofDescriptor := by
  rintro ⟨replaceOnce, mimeTypes, filters⟩ ⟨replaceOnce', mimeTypes', filters'⟩ h
  cases h
  rfl

/-- Nothing that an entry says is lost just if the first entry of its path has the same settings. -/
theorem isServed_iff_sameSettings (h : IsServed f stored) (hsame : SameTarget f e) :
    IsServed e stored ↔ SameSettings f e := by
  have hf := isServed_iff.1 h
  constructor
  · intro he
    have hboth : HttpEndpoint.ofDescriptor f = .ofDescriptor e := hf.trans (isServed_iff.1 he).symm
    have hproxy := congrArg HttpEndpoint.proxyConf hboth
    have hsub := congrArg HttpEndpoint.stringSub hboth
    exact ⟨Option.map_injective proxyConf_injective hproxy,
      Option.map_injective stringSub_injective hsub⟩
  · rintro ⟨hproxy, hsub⟩
    have hkept := isKept_of_isServed h hsame
    exact ⟨hkept.name, hkept.port, hkept.path, hproxy ▸ hkept.proxyConf, hsub ▸ hkept.stringSub⟩

theorem key_of_isDuplicate (h : IsDuplicate f e err) : err.key = publicPath e := by
  cases h with
  | external hk => simp [MountError.key, publicPath, hk]
  | internal hnone => simp [MountError.key, publicPath, hnone]

theorem exists_error {a b : Descriptor.HttpEndpoint} (ha : a ∈ es) (hb : b ∈ es)
    (hpath : publicPath a = publicPath b) (hne : ¬ SameTarget a b) :
    ∃ err, ofDescriptors es = .error err ∧ ∃ f ∈ es, ∃ e ∈ es,
      publicPath f = err.key ∧ publicPath e = err.key ∧ ¬ SameTarget f e := by
  cases hout : ofDescriptors es with
  | ok out =>
    have hagree := (exists_merge_iff clash_self).1 ⟨out, hout⟩
    simp only [agrees_iff_fits] at hagree
    exact absurd (forall_fits_iff.1 hagree a ha b hb hpath) hne
  | error err =>
    obtain ⟨before, e, after, f, hes, _, hf, hclash⟩ := (merge_empty_eq_error_iff clash_self).1 hout
    obtain ⟨hdiffer, hduplicate⟩ := clash_eq_some_iff.1 hclash
    have hkey := key_of_isDuplicate hduplicate
    exact ⟨err, rfl, f, hf.mem, e, by simp [hes], hf.key_eq.trans hkey.symm, hkey.symm, hdiffer⟩

end Settings

/-- Every entry finds its name, port and path in the table, with the settings of the first entry of
its public path; its own settings are there just if they are the same. Entries of one path that
differ in name, port or path are an error, which tells a path of that kind. -/
theorem ofDescriptors_settings (es : List Descriptor.HttpEndpoint) :
    (∀ out, ofDescriptors es = .ok out → ∀ e ∈ es,
      ∃ f stored, IsFirst publicPath es (publicPath e) f ∧ out.get? (publicPath e) = some stored ∧
        IsKept f e stored ∧ (IsServed e stored ↔ SameSettings f e)) ∧
    ∀ a ∈ es, ∀ b ∈ es, publicPath a = publicPath b → ¬ SameTarget a b →
      ∃ err, ofDescriptors es = .error err ∧ ∃ f ∈ es, ∃ e ∈ es,
        publicPath f = err.key ∧ publicPath e = err.key ∧ ¬ SameTarget f e := by
  constructor
  · intro out hout e he
    obtain ⟨f, stored, hf, hstored, hserved, hsame⟩ := exists_isServed hout he
    exact ⟨f, stored, hf, hstored, isKept_of_isServed hserved hsame,
      isServed_iff_sameSettings hserved hsame⟩
  · intro a ha b hb hpath hne
    exact exists_error ha hb hpath hne

def plainEndpoint : Descriptor.HttpEndpoint := { name := "ui", path := "/ui" }

/-- The same endpoint, behind a proxy that lets connections be upgraded. -/
def proxiedEndpoint : Descriptor.HttpEndpoint :=
  { plainEndpoint with proxyConf := some { websocket := true } }

theorem ofDescriptors_plain_proxied :
    ∃ out, ofDescriptors [plainEndpoint, proxiedEndpoint] = .ok out ∧
      out.get? "/ui" = some ⟨"ui", none, "/ui", none, none⟩ :=
  exists_ok_of_toOption_bind (by decide)

theorem ofDescriptors_settings_proxied :
    (∃ out stored, ofDescriptors [plainEndpoint, proxiedEndpoint] = .ok out ∧
      out.get? "/ui" = some stored ∧ stored.name = "ui" ∧ stored.proxyConf = none) ∧
    ∃ err, ofDescriptors [plainEndpoint, { plainEndpoint with port := some 80 }] = .error err ∧
      err.key = "/ui" := by
  constructor
  · obtain ⟨out, hout, _⟩ := ofDescriptors_plain_proxied
    obtain ⟨f, stored, hf, hstored, hkept, _⟩ :=
      (ofDescriptors_settings [plainEndpoint, proxiedEndpoint]).1 out hout proxiedEndpoint (by simp)
    have hfirst : IsFirst publicPath [plainEndpoint, proxiedEndpoint] "/ui" plainEndpoint :=
      ⟨[], [proxiedEndpoint], rfl, rfl, nofun⟩
    obtain rfl := hf.unique hfirst
    have hproxy : Option.Rel IsProxyConf none stored.proxyConf := hkept.proxyConf
    refine ⟨out, stored, hout, hstored, hkept.name, ?_⟩
    cases hp : stored.proxyConf with
    | none => rfl
    | some p => cases hp ▸ hproxy
  · have hne : ¬ SameTarget plainEndpoint { plainEndpoint with port := some 80 } := by
      intro h
      cases h.port
    obtain ⟨err, herr, f, hf, _, _, hkey, _⟩ :=
      (ofDescriptors_settings [plainEndpoint, { plainEndpoint with port := some 80 }]).2
        plainEndpoint (by simp) _ (List.mem_cons_of_mem _ (List.mem_singleton_self _)) rfl hne
    have hpath : ∀ e ∈ [plainEndpoint, { plainEndpoint with port := some 80 }],
        publicPath e = "/ui" := by decide
    exact ⟨err, herr, hkey.symm.trans (hpath f hf)⟩

theorem exists_lost_settings :
    ∃ out stored, ofDescriptors [plainEndpoint, proxiedEndpoint] = .ok out ∧
      out.get? (publicPath proxiedEndpoint) = some stored ∧ ¬ IsServed proxiedEndpoint stored := by
  obtain ⟨out, hout, hstored⟩ := ofDescriptors_plain_proxied
  refine ⟨out, _, hout, hstored, fun h => ?_⟩
  cases h.proxyConf

end HttpEndpoint

end ModuleCompiler.Module
