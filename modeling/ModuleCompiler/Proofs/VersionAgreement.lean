import ModuleCompiler.Proofs.Compilation
import ModuleCompiler.Proofs.Decode.Reading

/-!
A document is read twice, for its version and as a descriptor. Both readings see one version, so a
descriptor is compiled as what it says it is.
-/

namespace ModuleCompiler

open Decode Yaml

namespace Descriptor

/-- The version that was looked up is that of the descriptor. None was found where the descriptor
has an empty or null one. -/
structure SameVersion (found : Option String) (version : String) : Prop where
  named : ∀ v, found = some v → version = v
  unnamed : found = none → version ∈ ["", "~", "null", "Null", "NULL"]

theorem SameVersion.some (version : String) : SameVersion (some version) version :=
  ⟨fun _ h => Option.some.inj h, nofun⟩

theorem SameVersion.none {version : String}
    (h : version = "" ∨ ScalarText.isNull version = true) : SameVersion none version := by
  refine ⟨nofun, fun _ => ?_⟩
  simp only [ScalarText.isNull, Bool.or_eq_true, decide_eq_true_eq] at h
  rcases h with h | ((h | h) | h) | h <;> simp [h]

theorem keeps_version : ∀ f ∈ fields.tail, f.Keeps (·.modfileVersion) := by
  simp [fields]

section Readings

variable {anchors : Anchors} {p q : Place} {depth depth' : Nat} {n : Node}

/-- One value, read as an optional text and as a text. -/
theorem sameVersion_of_value {found : Option String} {version : String}
    (hf : Reads anchors (option text p n) found) (hv : Reads anchors (text q n) version) :
    SameVersion found version := by
  obtain ⟨m, hm, hcase⟩ := hf.option
  obtain ⟨s, hs, rfl⟩ := hv.textAs
  cases hm.symm.trans hs
  rcases hcase with ⟨rfl, hleft⟩ | ⟨t, rfl, hread⟩
  · cases hleft with
    | scalar _ hnull => exact .none hnull
  · obtain ⟨s', hs', rfl⟩ := hread.textAs
    cases hs'
    exact .some _

/-- An entry is of the version in both readings or in none. -/
theorem sameVersion_step {e : Node × Node} {acc acc' : List String × VersionMarker}
    {rec rec' : List String × Descriptor} (h : SameVersion acc.2.version rec.2.modfileVersion)
    (hm : Reads anchors (takeField p depth VersionMarker.fields acc e) acc')
    (hd : Reads anchors (takeField q depth' fields rec e) rec') :
    SameVersion acc'.2.version rec'.2.modfileVersion := by
  obtain ⟨s, hs, hm⟩ := hm.takeField
  obtain ⟨s', hs', hd⟩ := hd.takeField
  cases hs.symm.trans hs'
  -- both records know the version first and by one name, so they part only over other keys
  simp only [VersionMarker.fields, fields, find?_field "modfileVersion"] at hm hd
  by_cases hkey : s.text = "modfileVersion"
  · simp only [if_pos hkey] at hm hd
    rcases hm with ⟨hm, _⟩ | ⟨f, _, store, hf, _, hread, rfl⟩
    · cases hm
    rcases hd with ⟨hd, _⟩ | ⟨f', _, store', hf', _, hread', rfl⟩
    · cases hd
    cases hf
    cases hf'
    obtain ⟨found, hfound, rfl⟩ := hread.map
    obtain ⟨version, hversion, rfl⟩ := hread'.map
    exact sameVersion_of_value hfound hversion
  · simp only [if_neg hkey] at hm hd
    rcases hm with ⟨_, rfl⟩ | ⟨f, _, _, hf, _⟩
    · rcases hd with ⟨_, rfl⟩ | ⟨f', _, store', hf', _, hread', rfl⟩
      · exact h
      · have hkeeps : (store' rec.2).modfileVersion = rec.2.modfileVersion :=
          keeps_version f' (List.mem_of_find?_eq_some hf') _ _ _ _ hread' rec.2
        exact hkeeps.symm ▸ h
    · cases hf

theorem sameVersion_fields {es : List (Node × Node)} {marker : VersionMarker} {d : Descriptor}
    (hm : Reads anchors (Decode.fields p depth VersionMarker.fields [] {} es) marker)
    (hd : Reads anchors (Decode.fields q depth' fields [] {} es) d) :
    SameVersion marker.version d.modfileVersion := by
  rw [fields_eq_foldlM] at hm hd
  obtain ⟨acc, hmarker, rfl⟩ := hm.map
  obtain ⟨rec, hrecord, rfl⟩ := hd.map
  refine Reads.foldlM_related (R := fun acc rec => SameVersion acc.2.version rec.2.modfileVersion)
    ?_ (.none (.inl rfl)) hmarker hrecord
  exact fun _ _ _ _ _ h hm hd => sameVersion_step h hm hd

end Readings

theorem sameVersion_of_run {doc : Document} {marker : Option VersionMarker} {d : Descriptor}
    (hm : VersionMarker.decoder.run doc = .ok marker) (hd : decoder.run doc = .ok d) :
    SameVersion (marker.bind (·.version)) d.modfileVersion := by
  obtain ⟨m, hroot, hmarker⟩ := (reads_of_run hm).option
  obtain ⟨m', hroot', hrecord⟩ := (reads_of_run hd).record
  cases hroot.symm.trans hroot'
  -- what is no map leaves both records as they start, or is no descriptor
  rcases hrecord with ⟨tag, es, depth, rfl, hd⟩ | ⟨hempty, rfl⟩
  · rcases hmarker with ⟨_, hleft⟩ | ⟨found, rfl, hread⟩
    · cases hleft
    · obtain ⟨m, ht, hread⟩ := hread.record
      cases ht
      rcases hread with ⟨_, _, _, he, hm⟩ | ⟨hempty, _⟩
      · cases he
        exact sameVersion_fields hm hd
      · cases hempty
  · rcases hmarker with ⟨rfl, _⟩ | ⟨found, rfl, hread⟩
    · exact .none (.inl rfl)
    · obtain ⟨m', ht, hread⟩ := hread.record
      cases (target?_of_isEmptyCollection hempty).symm.trans ht
      rcases hread with ⟨_, _, _, rfl, _⟩ | ⟨_, rfl⟩
      · cases hempty
      · exact .none (.inl rfl)

/-- The version that a document is compiled by is the one that its descriptor has. -/
def IsSelected (doc : Document) : Prop :=
  ∃ d, decoder.run doc = .ok d ∧ Compiler.versionOf doc = .ok (some d.modfileVersion) ∧
    Compiler.standard.registry.get? d.modfileVersion = some .v1

theorem sameVersion_of_versionOf {doc : Document} {version : String} {d : Descriptor}
    (hv : Compiler.versionOf doc = .ok (some version)) (hd : decoder.run doc = .ok d) :
    d.modfileVersion = version := by
  cases hm : VersionMarker.decoder.run doc with
  | error e =>
    rw [Compiler.versionOf, hm] at hv
    cases hv
  | ok marker =>
    rw [Compiler.versionOf, hm] at hv
    have hfound := (Option.filter_eq_some_iff.1 (Except.ok.inj hv)).1
    exact (sameVersion_of_run hm hd).named version hfound

/-- A descriptor has the version that was looked up in its document, and whatever is made of a
descriptor is made by that version. -/
theorem version_agrees (doc : Document) :
    (∀ marker d, VersionMarker.decoder.run doc = .ok marker → decoder.run doc = .ok d →
      SameVersion (marker.bind (·.version)) d.modfileVersion) ∧
    (Generated (Compiler.standard.compile doc) ↔ IsSelected doc) := by
  refine ⟨fun marker d hm hd => sameVersion_of_run hm hd, ?_, ?_⟩
  · intro h
    obtain ⟨hv, d, hd, _⟩ := (Compiler.standard_compile_eq_iff h).1 rfl
    have hversion := sameVersion_of_versionOf hv hd
    refine ⟨d, hd, hversion ▸ hv, ?_⟩
    rw [hversion, Compiler.get?_standard, if_pos rfl]
  · rintro ⟨d, hd, hv, hentry⟩
    rw [Compiler.get?_standard, Option.ite_none_right_eq_some] at hentry
    rw [hentry.1] at hv
    have hgenerated := generated_ofDescriptor d
    rwa [(Compiler.standard_compile_eq_iff hgenerated).2 ⟨hv, d, hd, rfl⟩]

/-- A document that has its version from another field. -/
def aliasDocument : ByteArray := "id: &v v1\nmodfileVersion: *v\n".toUTF8

/-- A document that spells its version as a null. -/
def nullDocument : ByteArray := "id: web\nmodfileVersion: ~\n".toUTF8

theorem version_agrees_alias :
    (∃ d, decoder.run (.ofBytes aliasDocument) = .ok d ∧ d.modfileVersion = "v1" ∧
      Compiler.standard.registry.get? d.modfileVersion = some .v1) ∧
    ∃ marker d, VersionMarker.decoder.run (.ofBytes nullDocument) = .ok marker ∧
      decoder.run (.ofBytes nullDocument) = .ok d ∧ marker.bind (·.version) = none ∧
      d.modfileVersion ∈ ["", "~", "null", "Null", "NULL"] := by
  constructor
  · obtain ⟨m, hm, _⟩ := exists_ok_of_toOption_bind (x := compile aliasDocument)
      (f := fun _ => some ()) (b := ()) (by decide +kernel)
    obtain ⟨d, hd, _, hentry⟩ := (version_agrees (.ofBytes aliasDocument)).2.1 (.inl ⟨m, hm⟩)
    have hversion := hentry
    rw [Compiler.get?_standard, Option.ite_none_right_eq_some] at hversion
    exact ⟨d, hd, hversion.1, hentry⟩
  · obtain ⟨marker, hm, hnone⟩ := exists_ok_of_toOption_bind
      (x := VersionMarker.decoder.run (.ofBytes nullDocument))
      (f := fun marker => some (marker.bind (·.version))) (b := none) (by decide +kernel)
    obtain ⟨d, hd, _⟩ := exists_ok_of_toOption_bind (x := decoder.run (.ofBytes nullDocument))
      (f := fun _ => some ()) (b := ()) (by decide +kernel)
    have hunnamed := Option.some.inj hnone
    have hsame := (version_agrees (.ofBytes nullDocument)).1 marker d hm hd
    exact ⟨marker, d, hm, hd, hunnamed, hsame.unnamed hunnamed⟩

end Descriptor

end ModuleCompiler
