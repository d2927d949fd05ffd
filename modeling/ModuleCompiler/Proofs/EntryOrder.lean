import ModuleCompiler.Proofs.Unmarked

/-!
Documents that differ by the order of their entries. Whatever is made of one of them is made of the
other, but that a decoding that fails may fail in another place.
-/

namespace ModuleCompiler

open Decode

/-- Two whole documents without aliases, with distinct keys in each map, that differ by the order of
entries at most. -/
structure Yaml.Document.Reordered (doc doc' : Yaml.Document) : Prop where
  root : doc.root.Reordered doc'.root
  fault : doc.fault = none
  fault' : doc'.fault = none
  continues : doc.continues = doc'.continues

section Run

variable {decoder : Decoder α} {doc doc' : Yaml.Document}

theorem Decoder.run_of_pure {a : α} (h : decoder .root doc.root = pure a)
    (hf : doc.fault = none) :
    decoder.run doc = if doc.continues then .error .severalDocuments else .ok a := by
  simp only [Decoder.run, h, hf]
  rfl

theorem Decoder.run_of_fails (h : Fails (decoder .root doc.root)) :
    ∃ e, decoder.run doc = .error e := by
  obtain ⟨e, he⟩ := h ⟨doc.anchored, 100 * doc.eventCount⟩ 0
  refine ⟨e, ?_⟩
  simp only [Decoder.run, he]

theorem Decode.Stable.run (h : Stable decoder) (hd : doc.Reordered doc') :
    decoder.run doc = decoder.run doc' ∨
      ∃ e e', decoder.run doc = .error e ∧ decoder.run doc' = .error e' := by
  cases h .root _ _ hd.root with
  | yield hab hx hy =>
    refine .inl ?_
    rw [Decoder.run_of_pure hx hd.fault, Decoder.run_of_pure hy hd.fault', hab, hd.continues]
  | fail hx hy =>
    obtain ⟨e, he⟩ := Decoder.run_of_fails hx
    obtain ⟨e', he'⟩ := Decoder.run_of_fails hy
    exact .inr ⟨e, e', he, he'⟩

end Run

section Compile

variable {doc doc' : Yaml.Document}

theorem versionOf_reordered (h : doc.Reordered doc') :
    Compiler.versionOf doc = Compiler.versionOf doc' ∨
      ∃ e e', Compiler.versionOf doc = .error e ∧ Compiler.versionOf doc' = .error e' := by
  unfold Compiler.versionOf
  rcases Descriptor.VersionMarker.composed_decoder.stable.run h with hm | ⟨e, e', he, he'⟩
  · exact .inl (by rw [hm])
  · exact .inr ⟨e, e', by rw [he]; rfl, by rw [he']; rfl⟩

theorem VersionEntry.v1_compile_reordered (h : doc.Reordered doc') :
    v1.compile doc = v1.compile doc' ∨
      ∃ e e', v1.compile doc = .error (.decode e) ∧ v1.compile doc' = .error (.decode e') := by
  simp only [v1]
  rcases Descriptor.composed_decoder.stable.run h with hd | ⟨e, e', he, he'⟩
  · exact .inl (by rw [hd])
  · exact .inr ⟨e, e', by rw [he], by rw [he']⟩

theorem Compiler.standard_compile_reordered (h : doc.Reordered doc') :
    standard.compile doc = standard.compile doc' ∨
      ∃ e e', standard.compile doc = .error (.decode e) ∧
        standard.compile doc' = .error (.decode e') := by
  rw [standard_compile_eq, standard_compile_eq]
  rcases versionOf_reordered h with hv | ⟨e, e', he, he'⟩
  · rw [hv]
    rcases versionOf doc' with e | _ | version
    · exact .inl rfl
    · exact .inl rfl
    -- a version that is not known is refused before the descriptor is decoded
    · by_cases hver : version = VersionEntry.v1.version
      · simp only [if_pos hver]
        exact VersionEntry.v1_compile_reordered h
      · simp only [if_neg hver, true_or]
  · rw [he, he']
    exact .inr ⟨e, e', rfl, rfl⟩

theorem Compiler.standard_compile_reordered_iff (h : doc.Reordered doc') :
    (∀ m, standard.compile doc = .ok m ↔ standard.compile doc' = .ok m) ∧
      ∀ e, (∀ cause, e ≠ .decode cause) →
        (standard.compile doc = .error e ↔ standard.compile doc' = .error e) := by
  rcases standard_compile_reordered h with heq | ⟨e, e', he, he'⟩
  · rw [heq]
    exact ⟨fun _ => Iff.rfl, fun _ _ => Iff.rfl⟩
  · rw [he, he']
    refine ⟨fun m => ⟨nofun, nofun⟩, fun e₀ hne => ⟨fun hc => ?_, fun hc => ?_⟩⟩
    · exact absurd (Except.error.inj hc).symm (hne e)
    · exact absurd (Except.error.inj hc).symm (hne e')

end Compile

/-- The order of entries does not show: documents that differ by it have the same module, or none
for the same reason, unless they cannot be decoded. -/
theorem compile_entry_order {bytes bytes' : ByteArray}
    (h : (Yaml.Document.ofBytes bytes).unmarked.Reordered (Yaml.Document.ofBytes bytes').unmarked) :
    (∀ m, compile bytes = .ok m ↔ compile bytes' = .ok m) ∧
      ∀ e, (∀ cause, e ≠ .decode cause) →
        (compile bytes = .error e ↔ compile bytes' = .error e) := by
  -- entries that change places have other marks, so it is without them that documents are compared
  obtain ⟨hok, herror⟩ := Compiler.standard_compile_reordered_iff h
  refine ⟨fun m => ?_, fun e hne => ?_⟩
  · have hm := Compiler.standard_compile_unmarked_ok (.ofBytes bytes) (m := m)
    exact hm.symm.trans ((hok m).trans (Compiler.standard_compile_unmarked_ok _))
  · have he := Compiler.standard_compile_unmarked_error (.ofBytes bytes) hne
    exact he.symm.trans ((herror e hne).trans (Compiler.standard_compile_unmarked_error _ hne))

def webDocument : ByteArray :=
  "modfileVersion: v1\nservices:\n  web:\n    name: Web\n    image: httpd\n".toUTF8

/-- The same with its entries turned round. -/
def turnedDocument : ByteArray :=
  "services:\n  web:\n    image: httpd\n    name: Web\nmodfileVersion: v1\n".toUTF8

theorem compile_entry_order_web :
    (Yaml.Document.ofBytes webDocument).unmarked.Reordered
        (Yaml.Document.ofBytes turnedDocument).unmarked ∧
      ∃ m, compile webDocument = .ok m ∧ compile turnedDocument = .ok m := by
  have hreordered : (Yaml.Document.ofBytes webDocument).unmarked.Reordered
      (Yaml.Document.ofBytes turnedDocument).unmarked := {
    root := .of_reorders (by decide +kernel)
    fault := by decide +kernel
    fault' := by decide +kernel
    continues := by decide +kernel }
  obtain ⟨m, hm, _⟩ := exists_ok_of_toOption_bind (x := compile webDocument)
    (f := fun _ => some ()) (b := ()) (by decide +kernel)
  exact ⟨hreordered, m, hm, ((compile_entry_order hreordered).1 m).1 hm⟩

end ModuleCompiler
