import Mathlib.Data.List.Induction
import Mathlib.Data.List.Nodup
import ModuleCompiler.Compiler.Basic
import ModuleCompiler.Proofs.Outcome

/-!
Registering versions. What a builder holds after any calls is read off the calls alone, so a table
of versions is a matter of their names, and the order of the calls is lost in it.
-/

namespace ModuleCompiler.RegistryBuilder

def registerAll (es : List VersionEntry) : RegistryBuilder := es.foldl register {}

section Calls

/-- What is wrong with a call after earlier ones. If one of them has its name, a valid one has
registered it (`exists_valid_call`). -/
def offence? (before : List VersionEntry) (e : VersionEntry) : Option RegistrationFault :=
  if e.version = "" then some .emptyName
  else if e.version ∈ before.map (·.version) then some (.alreadyRegistered e.version)
  else none

def offencesAfter (before : List VersionEntry) : List VersionEntry → List RegistrationFault
  | [] => []
  | e :: es => (offence? before e).toList ++ offencesAfter (before ++ [e]) es

/-- What is wrong with some calls, in their order. -/
def offences (es : List VersionEntry) : List RegistrationFault := offencesAfter [] es

structure AreDistinct (es : List VersionEntry) : Prop where
  named : ∀ e ∈ es, e.version ≠ ""
  nodup : (es.map (·.version)).Nodup

variable {before es fs : List VersionEntry} {e : VersionEntry} {v : String}

theorem offence?_eq_none_iff :
    offence? before e = none ↔ e.version ≠ "" ∧ e.version ∉ before.map (·.version) := by
  by_cases hempty : e.version = ""
  · simp [offence?, hempty]
  · by_cases hmem : e.version ∈ before.map (·.version)
    · simp only [offence?, hempty, hmem, if_true, if_false]
      simp
    · simp only [offence?, hempty, hmem, if_false]
      simp [hempty]

theorem exists_valid_call (hv : v ≠ "") (h : v ∈ es.map (·.version)) :
    ∃ bs e cs, es = bs ++ e :: cs ∧ e.version = v ∧ offence? bs e = none := by
  induction es using List.reverseRecOn with
  | nil => simp at h
  | append_singleton es e ih =>
    by_cases hes : v ∈ es.map (·.version)
    · obtain ⟨bs, e', cs, rfl, he', hvalid⟩ := ih hes
      exact ⟨bs, e', cs ++ [e], by simp, he', hvalid⟩
    · have he : e.version = v := by
        rw [List.map_append, List.mem_append] at h
        exact (List.mem_singleton.1 (h.resolve_left hes)).symm
      subst he
      exact ⟨es, e, [], rfl, rfl, offence?_eq_none_iff.2 ⟨hv, hes⟩⟩

theorem offencesAfter_append (before es fs : List VersionEntry) :
    offencesAfter before (es ++ fs) =
      offencesAfter before es ++ offencesAfter (before ++ es) fs := by
  induction es generalizing before with
  | nil => simp [offencesAfter]
  | cons e es ih =>
    simp only [List.cons_append, offencesAfter, ih, List.append_assoc, List.nil_append]

theorem offences_append_singleton (es : List VersionEntry) (e : VersionEntry) :
    offences (es ++ [e]) = offences es ++ (offence? es e).toList := by
  simp only [offences, offencesAfter_append, offencesAfter, List.nil_append, List.append_nil]

theorem offences_eq_nil_iff : offences es = [] ↔ AreDistinct es := by
  induction es using List.reverseRecOn with
  | nil => exact ⟨fun _ => ⟨by simp, by simp⟩, fun _ => rfl⟩
  | append_singleton es e ih =>
    have hnone : (offence? es e).toList = [] ↔ offence? es e = none := by
      cases offence? es e <;> simp
    rw [offences_append_singleton, List.append_eq_nil_iff, ih, hnone, offence?_eq_none_iff]
    constructor
    · rintro ⟨hes, hempty, hmem⟩
      refine ⟨fun e' he' => ?_, ?_⟩
      · rcases List.mem_append.1 he' with he' | he'
        · exact hes.named e' he'
        · rwa [List.mem_singleton.1 he']
      · rw [List.map_append]
        exact List.Nodup.append hes.nodup (List.nodup_singleton _) (by simpa using hmem)
    · rintro ⟨hnamed, hnodup⟩
      rw [List.map_append] at hnodup
      have hdisjoint := List.disjoint_of_nodup_append hnodup
      refine ⟨⟨fun e' he' => hnamed e' (List.mem_append_left _ he'), hnodup.of_append_left⟩,
        hnamed e (by simp), fun hmem => hdisjoint hmem (by simp)⟩

theorem AreDistinct.perm (h : AreDistinct es) (hp : fs.Perm es) : AreDistinct fs where
  named e he := h.named e (hp.mem_iff.1 he)
  nodup := (hp.map _).nodup_iff.2 h.nodup

theorem AreDistinct.eq_of_version (h : AreDistinct es) {e e' : VersionEntry} (he : e ∈ es)
    (he' : e' ∈ es) (hv : e.version = e'.version) : e = e' :=
  List.inj_on_of_nodup_map h.nodup he he' hv

end Calls

section Builder

/-- A builder after some calls: the first call of a name counts. -/
structure Records (b : RegistryBuilder) (es : List VersionEntry) : Prop where
  entries : ∀ v, b.entries.get? v = es.find? fun e => decide (e.version ≠ "" ∧ e.version = v)
  faults : b.faults = offences es

variable {b : RegistryBuilder} {es fs : List VersionEntry} {e : VersionEntry} {v : String}

theorem Records.contains_iff (h : b.Records es) (hv : v ≠ "") :
    b.entries.contains v = true ↔ v ∈ es.map (·.version) := by
  rw [SortedMap.contains, h.entries, List.find?_isSome, List.mem_map]
  constructor
  · rintro ⟨e, he, hp⟩
    exact ⟨e, he, (of_decide_eq_true hp).2⟩
  · rintro ⟨e, he, rfl⟩
    exact ⟨e, he, decide_eq_true ⟨hv, rfl⟩⟩

theorem Records.fault?_eq (h : b.Records es) (e : VersionEntry) :
    b.fault? e.version = offence? es e := by
  by_cases hempty : e.version = ""
  · simp [fault?, offence?, hempty]
  · have hcontains := h.contains_iff hempty
    simp only [fault?, offence?, String.isEmpty_iff, hempty, if_false, hcontains]

/-- One more call. -/
theorem Records.register (h : b.Records es) (e : VersionEntry) :
    (b.register e).Records (es ++ [e]) := by
  have hfault := h.fault?_eq e
  cases ho : offence? es e with
  | some f =>
    rw [ho] at hfault
    have hreg : b.register e = { b with faults := b.faults ++ [f] } := by
      simp only [RegistryBuilder.register, hfault]
    refine ⟨fun v => ?_, ?_⟩
    · -- the call has no name, or the name has been found before
      rw [hreg, h.entries, List.find?_append]
      by_cases hp : e.version ≠ "" ∧ e.version = v
      · have hmem : e.version ∈ es.map (·.version) := by
          by_contra hmem
          rw [offence?_eq_none_iff.2 ⟨hp.1, hmem⟩] at ho
          cases ho
        have hsome := (h.contains_iff hp.1).2 hmem
        rw [SortedMap.contains, h.entries, hp.2] at hsome
        rw [Option.or_of_isSome hsome]
      · rw [List.find?_cons_of_neg (by simpa using hp), List.find?_nil, Option.or_none]
    · rw [hreg, offences_append_singleton, ho, ← h.faults]
      rfl
  | none =>
    rw [ho] at hfault
    obtain ⟨hempty, hmem⟩ := offence?_eq_none_iff.1 ho
    have hreg : b.register e = { b with entries := b.entries.insert e.version e } := by
      simp only [RegistryBuilder.register, hfault]
    refine ⟨fun v => ?_, ?_⟩
    · rw [hreg, SortedMap.get?_insert, h.entries, List.find?_append]
      by_cases hv : v = e.version
      · subst hv
        have hnone := mt (h.contains_iff hempty).1 hmem
        rw [SortedMap.contains, h.entries, Bool.not_eq_true, Option.isSome_eq_false_iff,
          Option.isNone_iff_eq_none] at hnone
        rw [if_pos rfl, hnone, List.find?_cons_of_pos (by simpa using hempty), Option.none_or]
      · rw [if_neg hv, List.find?_cons_of_neg (by simpa using fun _ h => hv h.symm), List.find?_nil,
          Option.or_none]
    · rw [hreg, offences_append_singleton, ho, h.faults]
      simp

theorem Records.foldl (h : b.Records es) (fs : List VersionEntry) :
    (fs.foldl RegistryBuilder.register b).Records (es ++ fs) := by
  induction fs generalizing b es with
  | nil => simpa using h
  | cons f fs ih => simpa using ih (h.register f)

theorem records_registerAll (es : List VersionEntry) : (registerAll es).Records es := by
  have hinitial : Records {} [] := ⟨fun _ => rfl, rfl⟩
  exact hinitial.foldl es

theorem Records.get?_iff (h : b.Records es) (hd : AreDistinct es) :
    b.entries.get? v = some e ↔ e ∈ es ∧ e.version = v := by
  have hfound : ∀ e', b.entries.get? v = some e' → e' ∈ es ∧ e'.version = v := by
    intro e' hfind
    rw [h.entries] at hfind
    have hp := List.find?_some hfind
    exact ⟨List.mem_of_find?_eq_some hfind, (of_decide_eq_true hp).2⟩
  refine ⟨hfound e, ?_⟩
  rintro ⟨he, rfl⟩
  have hcontains := (h.contains_iff (hd.named e he)).2 (List.mem_map_of_mem he)
  obtain ⟨e', hget⟩ := SortedMap.contains_iff.1 hcontains
  obtain ⟨he', hversion⟩ := hfound e' hget
  rw [hget, hd.eq_of_version he' he hversion]

theorem Records.isEmpty_iff (h : b.Records es) (hd : AreDistinct es) :
    b.entries.isEmpty = true ↔ es = [] := by
  constructor
  · intro hempty
    by_contra hne
    obtain ⟨e, es', rfl⟩ := List.exists_cons_of_ne_nil hne
    have hget := (h.get?_iff hd).2 ⟨List.mem_cons_self (a := e), rfl⟩
    rw [SortedMap.get?, List.isEmpty_iff.1 hempty] at hget
    cases hget
  · rintro rfl
    have hentries : b.entries = SortedMap.empty := SortedMap.ext_get? fun v => h.entries v
    rw [hentries]
    rfl

end Builder

section Build

variable {es fs : List VersionEntry} {r : Registry}

theorem build_registerAll (es : List VersionEntry) :
    (registerAll es).build =
      if offences es = [] then
        if es = [] then .error .noVersions else .ok ⟨(registerAll es).entries⟩
      else .error (.invalidConfiguration (offences es)) := by
  have h := records_registerAll es
  by_cases ho : offences es = []
  · have hempty := h.isEmpty_iff (offences_eq_nil_iff.1 ho)
    rw [if_pos ho, build, h.faults, ho, if_neg (by simp)]
    by_cases hes : es = []
    · rw [if_pos hes, if_pos (hempty.2 hes)]
    · rw [if_neg hes, if_neg (mt hempty.1 hes)]
  · rw [if_neg ho, build, h.faults, if_pos (by simpa using ho)]

theorem build_eq_ok_iff : (registerAll es).build = .ok r ↔
    es ≠ [] ∧ AreDistinct es ∧ r = ⟨(registerAll es).entries⟩ := by
  rw [build_registerAll, ← offences_eq_nil_iff]
  by_cases ho : offences es = []
  · by_cases hes : es = []
    · rw [if_pos ho, if_pos hes]
      simp [hes]
    · simp [ho, hes, eq_comm]
  · simp [ho]

theorem build_eq_noVersions_iff : (registerAll es).build = .error .noVersions ↔ es = [] := by
  rw [build_registerAll]
  by_cases ho : offences es = []
  · by_cases hes : es = []
    · rw [if_pos ho, if_pos hes]
      simp [hes]
    · simp [ho, hes]
  · have hes : es ≠ [] := by
      rintro rfl
      exact ho rfl
    simp [ho, hes]

theorem build_eq_error (hes : es ≠ []) {f : RegistryError}
    (h : (registerAll es).build = .error f) : f = .invalidConfiguration (offences es) := by
  rw [build_registerAll] at h
  by_cases ho : offences es = []
  · rw [if_pos ho, if_neg hes] at h
    cases h
  · rw [if_neg ho] at h
    exact (Except.error.inj h).symm

/-- A registry is the table of some entries by their names. -/
structure IsTable (r : Registry) (es : List VersionEntry) : Prop where
  ascending : r.versions.Pairwise (· < ·)
  mem_versions : ∀ v, v ∈ r.versions ↔ v ∈ es.map (·.version)
  get?_iff : ∀ v e, r.get? v = some e ↔ e ∈ es ∧ e.version = v

theorem isTable_of_build (h : (registerAll es).build = .ok r) : IsTable r es := by
  obtain ⟨_, hd, rfl⟩ := build_eq_ok_iff.1 h
  have hget := fun v e => (records_registerAll es).get?_iff hd (v := v) (e := e)
  refine ⟨?_, fun v => ?_, hget⟩
  · exact List.pairwise_map.2 (registerAll es).entries.ascending
  · rw [Registry.versions, SortedMap.mem_keys, List.mem_map]
    exact exists_congr fun e => hget v e

theorem build_perm (hp : fs.Perm es) (h : (registerAll es).build = .ok r) :
    (registerAll fs).build = .ok r := by
  obtain ⟨hes, hd, rfl⟩ := build_eq_ok_iff.1 h
  have hd' := hd.perm hp
  refine build_eq_ok_iff.2 ⟨fun hfs => hes ?_, hd', congrArg Registry.mk ?_⟩
  · rw [hfs] at hp
    exact hp.nil_eq.symm
  · refine SortedMap.ext_get? fun v => Option.ext fun e => ?_
    rw [(records_registerAll es).get?_iff hd, (records_registerAll fs).get?_iff hd', hp.mem_iff]

end Build

section Dispatch

variable {es : List VersionEntry} {r : Registry} {doc : Yaml.Document}

theorem versionOf_eq {marker : Descriptor.VersionMarker} {v : String}
    (h : Descriptor.VersionMarker.decoder.run doc = .ok (some marker))
    (hm : marker.version = some v) (hv : v ≠ "") : Compiler.versionOf doc = .ok (some v) := by
  simp [Compiler.versionOf, h, Except.map, hm, Option.filter, hv]

theorem isEmpty_of_build (h : (registerAll es).build = .ok r) : r.isEmpty = false := by
  obtain ⟨hes, hd, rfl⟩ := build_eq_ok_iff.1 h
  exact Bool.eq_false_iff.2 (mt ((records_registerAll es).isEmpty_iff hd).1 hes)

theorem compile_eq_of_build (h : (registerAll es).build = .ok r) {v : String}
    (hv : Compiler.versionOf doc = .ok (some v)) :
    (Compiler.mk r).compile doc =
      match r.get? v with
      | none => .error (.unknownVersion v)
      | some e => e.compile doc := by
  have hempty := isEmpty_of_build h
  cases hget : r.get? v with
  | none => simp only [Compiler.compile, hempty, hv, hget, Bool.false_eq_true, if_false]
  | some e => simp only [Compiler.compile, hempty, hv, hget, Bool.false_eq_true, if_false]

/-- A document is compiled by the entry of the version that it names. -/
structure Dispatches (r : Registry) (es : List VersionEntry) : Prop where
  registered : ∀ doc marker, Descriptor.VersionMarker.decoder.run doc = .ok (some marker) →
    ∀ e ∈ es, marker.version = some e.version → (Compiler.mk r).compile doc = e.compile doc
  unknown : ∀ doc marker v, Descriptor.VersionMarker.decoder.run doc = .ok (some marker) →
    marker.version = some v → v ≠ "" → v ∉ es.map (·.version) →
      (Compiler.mk r).compile doc = .error (.unknownVersion v)
  /-- Only an entry itself could say that there is none. -/
  decoders : ∀ doc, (Compiler.mk r).compile doc = .error .noDecoders →
    ∃ e ∈ es, e.compile doc = .error .noDecoders

theorem exists_noDecoders (h : (registerAll es).build = .ok r)
    (hc : (Compiler.mk r).compile doc = .error .noDecoders) :
    ∃ e ∈ es, e.compile doc = .error .noDecoders := by
  rcases hv : Compiler.versionOf doc with e | _ | v
  · simp [Compiler.compile, isEmpty_of_build h, hv] at hc
  · simp [Compiler.compile, isEmpty_of_build h, hv] at hc
  · rw [compile_eq_of_build h hv] at hc
    cases hget : r.get? v with
    | none => simp [hget] at hc
    | some e =>
      rw [hget] at hc
      exact ⟨e, (((isTable_of_build h).get?_iff v e).1 hget).1, hc⟩

theorem dispatches_of_build (h : (registerAll es).build = .ok r) : Dispatches r es := by
  have htable := isTable_of_build h
  obtain ⟨_, hd, _⟩ := build_eq_ok_iff.1 h
  refine ⟨fun doc marker hrun e he hm => ?_, fun doc marker v hrun hm hv hnew => ?_,
    fun doc hc => exists_noDecoders h hc⟩
  · rw [compile_eq_of_build h (versionOf_eq hrun hm (hd.named e he)),
      (htable.get?_iff e.version e).2 ⟨he, rfl⟩]
  · have hnone : r.get? v = none := by
      refine Option.eq_none_iff_forall_ne_some.2 fun e hget => hnew ?_
      obtain ⟨he, rfl⟩ := (htable.get?_iff v e).1 hget
      exact List.mem_map_of_mem he
    rw [compile_eq_of_build h (versionOf_eq hrun hm hv), hnone]

end Dispatch

/-- After any calls: a registry of exactly the names if they are some, distinct and not empty, and
the offending calls in their order otherwise. The order of the calls does not show in the registry,
and documents are compiled by the entries of their versions. -/
theorem build_registrations (es : List VersionEntry) :
    ((∃ r, (registerAll es).build = .ok r) ↔
        es ≠ [] ∧ (∀ e ∈ es, e.version ≠ "") ∧ (es.map (·.version)).Nodup) ∧
      ((registerAll es).build = .error .noVersions ↔ es = []) ∧
      (∀ f, (registerAll es).build = .error f → es ≠ [] →
        f = .invalidConfiguration (offences es)) ∧
      ∀ r, (registerAll es).build = .ok r →
        IsTable r es ∧ (∀ fs, fs.Perm es → (registerAll fs).build = .ok r) ∧ Dispatches r es := by
  refine ⟨⟨?_, ?_⟩, build_eq_noVersions_iff, fun f hf hes => build_eq_error hes hf, fun r hr =>
    ⟨isTable_of_build hr, fun fs hp => build_perm hp hr, dispatches_of_build hr⟩⟩
  · rintro ⟨r, hr⟩
    obtain ⟨hes, hd, _⟩ := build_eq_ok_iff.1 hr
    exact ⟨hes, hd.named, hd.nodup⟩
  · rintro ⟨hes, hnamed, hnodup⟩
    exact ⟨_, build_eq_ok_iff.2 ⟨hes, ⟨hnamed, hnodup⟩, rfl⟩⟩

/-- A version that has no documents yet. -/
def draft : VersionEntry := ⟨"v2", fun _ => .error .noVersion⟩

def draftDocument : Yaml.Document := .ofBytes "modfileVersion: v2
".toUTF8

theorem build_registrations_draft :
    (∃ r, (registerAll [draft, .v1]).build = .ok r ∧ (registerAll [.v1, draft]).build = .ok r ∧
      r.get? "v1" = some .v1 ∧ (Compiler.mk r).compile draftDocument = .error .noVersion) ∧
    (registerAll [.v1, ⟨"", draft.compile⟩, .v1]).build =
      .error (.invalidConfiguration [.emptyName, .alreadyRegistered "v1"]) := by
  have hdistinct : [draft, .v1] ≠ [] ∧ (∀ e ∈ [draft, .v1], e.version ≠ "") ∧
      ([draft, .v1].map (·.version)).Nodup := by
    refine ⟨by simp, ?_, by decide⟩
    simp [draft, VersionEntry.v1]
  obtain ⟨hok, _, _, htable⟩ := build_registrations [draft, .v1]
  obtain ⟨r, hr⟩ := hok.2 hdistinct
  obtain ⟨htable, hperm, hdispatch⟩ := htable r hr
  obtain ⟨marker, hmarker, hversion⟩ := exists_ok_of_toOption_bind
    (x := Descriptor.VersionMarker.decoder.run draftDocument) (f := fun m => m.bind (·.version))
    (b := "v2") (by decide +kernel)
  obtain ⟨marker, rfl, hversion⟩ := Option.bind_eq_some_iff.1 hversion
  have hget : r.get? "v1" = some .v1 := (htable.get?_iff "v1" .v1).2 ⟨by simp, rfl⟩
  refine ⟨⟨r, hr, hperm _ (List.Perm.swap _ _ _), hget, ?_⟩, ?_⟩
  · exact hdispatch.registered draftDocument marker hmarker draft (by simp) hversion
  · obtain ⟨_, _, herror, _⟩ := build_registrations [.v1, ⟨"", draft.compile⟩, .v1]
    obtain ⟨f, hf⟩ : ∃ f, (registerAll [.v1, ⟨"", draft.compile⟩, .v1]).build = .error f := ⟨_, rfl⟩
    rw [hf, herror f hf (by simp)]
    rfl

end ModuleCompiler.RegistryBuilder
